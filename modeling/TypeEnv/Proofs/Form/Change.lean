import TypeEnv.Proofs.Form.Fields

/-! The relation between references can be changed: what a related form needs is only that the
references, listed in order, are related in the new sense too. Related forms can be turned around, and
every form is related to itself. -/

namespace TypeEnv

variable {α β σ ρ : Type} {A A' : α → β → Prop} {S S' : σ → ρ → Prop}

/-! ### Turning around -/

theorem rel_flip {a : Option α} {b : Option β} (h : Option.Rel A a b) : Option.Rel (fun b a => A a b) b a := by
  cases h with
  | none => exact .none
  | some h => exact .some h

theorem OrderedMap.Related.flip {κ : Type} {x : OrderedMap κ α} {y : OrderedMap κ β} (h : x.Related A y) :
    y.Related (fun b a => A a b) x :=
  List.Forall₂.flip (h.imp fun _ _ hpq => ⟨hpq.1.symm, hpq.2⟩)

theorem Shape.Related.flip {x : Shape α σ} {y : Shape β ρ} (h : x.Related A S y) :
    y.Related (fun b a => A a b) (fun r s => S s r) x where
  typeParameters := h.typeParameters.flip
  baseTypes := h.baseTypes.flip
  declaredProperties := h.declaredProperties.flip
  callSignatures := h.callSignatures.flip
  constructSignatures := h.constructSignatures.flip
  stringIndex := rel_flip h.stringIndex
  numberIndex := rel_flip h.numberIndex

theorem ClassForm.Related.flip {x : ClassForm α σ} {y : ClassForm β ρ} (h : x.Related A S y) :
    y.Related (fun b a => A a b) (fun r s => S s r) x where
  shape := h.shape.flip
  instanceProperties := h.instanceProperties.flip
  staticProperties := h.staticProperties.flip
  target := rel_flip h.target
  typeArguments := h.typeArguments.flip

theorem TypeForm.Related.flip {x : TypeForm α σ} {y : TypeForm β ρ} (h : x.Related A S y) :
    y.Related (fun b a => A a b) (fun r s => S s r) x := by
  cases h with
  | simple kind => exact .simple kind
  | stringLiteral text => exact .stringLiteral text
  | booleanLiteral value => exact .booleanLiteral value
  | numberLiteral value => exact .numberLiteral value
  | interface h => exact .interface h.flip
  | classDeclaration h => exact .classDeclaration h.flip
  | classInstance h => exact .classInstance h
  | generic h h' h'' => exact .generic h.flip h' h''.flip
  | reference h h' => exact .reference h h'.flip
  | tuple minLength h => exact .tuple minLength h.flip
  | union h => exact .union h.flip
  | intersection h => exact .intersection h.flip
  | typeParameter h => exact .typeParameter (rel_flip h)
  | thisType h => exact .thisType (rel_flip h)
  | index h => exact .index h
  | indexedAccess h h' => exact .indexedAccess h h'
  | anonymous => exact .anonymous

theorem SignatureHeader.Related.flip {x : SignatureHeader α} {y : SignatureHeader β} (h : x.Related A y) :
    y.Related (fun b a => A a b) x where
  typeParameters := h.typeParameters.flip
  parameters := List.Forall₂.flip (h.parameters.imp fun _ _ hpq => ⟨hpq.1.symm, hpq.2⟩)
  returns := h.returns
  minArgumentCount := h.minArgumentCount.symm
  hasRestParameter := h.hasRestParameter.symm
  hasStringLiterals := h.hasStringLiterals.symm
  isolated := rel_flip h.isolated

/-! ### Every form and itself -/

theorem forall₂_eq_self (as : List α) : List.Forall₂ (· = ·) as as :=
  List.forall₂_same.2 fun _ _ => rfl

theorem rel_eq_self (a : Option α) : Option.Rel (· = ·) a a := by
  cases a with
  | none => exact .none
  | some a => exact .some rfl

theorem OrderedMap.related_self {κ : Type} (x : OrderedMap κ α) : x.Related (· = ·) x :=
  List.forall₂_same.2 fun _ _ => ⟨rfl, rfl⟩

theorem Shape.related_self (x : Shape α σ) : x.Related (· = ·) (· = ·) x where
  typeParameters := forall₂_eq_self _
  baseTypes := forall₂_eq_self _
  declaredProperties := x.declaredProperties.related_self
  callSignatures := forall₂_eq_self _
  constructSignatures := forall₂_eq_self _
  stringIndex := rel_eq_self _
  numberIndex := rel_eq_self _

theorem ClassForm.related_self (x : ClassForm α σ) : x.Related (· = ·) (· = ·) x where
  shape := x.shape.related_self
  instanceProperties := x.instanceProperties.related_self
  staticProperties := x.staticProperties.related_self
  target := rel_eq_self _
  typeArguments := forall₂_eq_self _

theorem TypeForm.related_self (x : TypeForm α σ) : x.Related (· = ·) (· = ·) x := by
  cases x with
  | simple kind => exact .simple kind
  | stringLiteral text => exact .stringLiteral text
  | booleanLiteral value => exact .booleanLiteral value
  | numberLiteral value => exact .numberLiteral value
  | interface shape => exact .interface shape.related_self
  | classDeclaration form => exact .classDeclaration form.related_self
  | classInstance => exact .classInstance rfl
  | generic shape => exact .generic shape.related_self rfl (forall₂_eq_self _)
  | reference => exact .reference rfl (forall₂_eq_self _)
  | tuple _ minLength => exact .tuple minLength (forall₂_eq_self _)
  | union => exact .union (forall₂_eq_self _)
  | intersection => exact .intersection (forall₂_eq_self _)
  | typeParameter => exact .typeParameter (rel_eq_self _)
  | thisType => exact .thisType (rel_eq_self _)
  | index => exact .index rfl
  | indexedAccess => exact .indexedAccess rfl rfl
  | anonymous => exact .anonymous

/-! ### Other relations between the references -/

theorem Shape.Related.of_references {x : Shape α σ} {y : Shape β ρ} (h : x.Related A S y)
    (hrefs : List.Forall₂ (Sum.LiftRel A' S') x.references y.references) : x.Related A' S' y := by
  have h₁ := h.typeParameters.length_eq
  have h₂ := h.baseTypes.length_eq
  have h₃ := h.declaredProperties.values.length_eq
  have h₄ := h.callSignatures.length_eq
  have h₅ := h.constructSignatures.length_eq
  have h₆ := (forall₂_toList.2 h.stringIndex).length_eq
  rw [Shape.references, Shape.references, forall₂_append_iff (by simp [h₁, h₂, h₃, h₄, h₅]),
    forall₂_append_iff (by simp [h₁, h₂, h₃]), forall₂_inl, forall₂_inl, forall₂_inr,
    forall₂_append_iff (by simp [h₁, h₂]), forall₂_append_iff h₁.symm, forall₂_append_iff h₄.symm,
    forall₂_append_iff h₆.symm, forall₂_toList, forall₂_toList] at hrefs
  obtain ⟨⟨⟨⟨htypes, hbases⟩, hproperties⟩, hcalls, hconstructs⟩, hstring, hnumber⟩ := hrefs
  exact ⟨htypes, hbases, OrderedMap.related_iff.2 ⟨(OrderedMap.related_iff.1 h.declaredProperties).1, hproperties⟩,
    hcalls, hconstructs, hstring, hnumber⟩

theorem ClassForm.Related.of_references {x : ClassForm α σ} {y : ClassForm β ρ} (h : x.Related A S y)
    (hrefs : List.Forall₂ (Sum.LiftRel A' S') x.references y.references) : x.Related A' S' y := by
  have h₁ := h.instanceProperties.values.length_eq
  have h₂ := h.staticProperties.values.length_eq
  have h₃ := (forall₂_toList.2 h.target).length_eq
  rw [ClassForm.references, ClassForm.references, forall₂_append_iff h.shape.references.length_eq.symm, forall₂_inl,
    forall₂_append_iff (by simp [h₁, h₂, h₃]), forall₂_append_iff (by simp [h₁, h₂]),
    forall₂_append_iff h₁.symm, forall₂_toList] at hrefs
  obtain ⟨hshape, ⟨⟨hinstance, hstatic⟩, htarget⟩, harguments⟩ := hrefs
  exact ⟨h.shape.of_references hshape,
    OrderedMap.related_iff.2 ⟨(OrderedMap.related_iff.1 h.instanceProperties).1, hinstance⟩,
    OrderedMap.related_iff.2 ⟨(OrderedMap.related_iff.1 h.staticProperties).1, hstatic⟩, htarget, harguments⟩

theorem TypeForm.Related.of_references {x : TypeForm α σ} {y : TypeForm β ρ} (h : x.Related A S y)
    (hrefs : List.Forall₂ (Sum.LiftRel A' S') x.references y.references) : x.Related A' S' y := by
  cases h with
  | simple kind => exact .simple kind
  | stringLiteral text => exact .stringLiteral text
  | booleanLiteral value => exact .booleanLiteral value
  | numberLiteral value => exact .numberLiteral value
  | interface h => exact .interface (h.of_references hrefs)
  | classDeclaration h => exact .classDeclaration (h.of_references hrefs)
  | classInstance h => exact .classInstance (by simpa [TypeForm.references] using hrefs)
  | generic h h' h'' =>
    rw [TypeForm.references, TypeForm.references, forall₂_append_iff h.references.length_eq.symm, forall₂_inl,
      List.forall₂_cons] at hrefs
    exact .generic (h.of_references hrefs.1) hrefs.2.1 hrefs.2.2
  | reference h h' =>
    rw [TypeForm.references, TypeForm.references, forall₂_inl, List.forall₂_cons] at hrefs
    exact .reference hrefs.1 hrefs.2
  | tuple minLength h => exact .tuple minLength (forall₂_inl.1 hrefs)
  | union h => exact .union (forall₂_inl.1 hrefs)
  | intersection h => exact .intersection (forall₂_inl.1 hrefs)
  | typeParameter h => exact .typeParameter (forall₂_toList.1 (forall₂_inl.1 hrefs))
  | thisType h => exact .thisType (forall₂_toList.1 (forall₂_inl.1 hrefs))
  | index h => exact .index (by simpa [TypeForm.references] using hrefs)
  | indexedAccess h h' =>
    simp only [TypeForm.references, List.forall₂_cons, Sum.liftRel_inl_inl] at hrefs
    exact .indexedAccess hrefs.1 hrefs.2.1
  | anonymous => exact .anonymous

theorem forall₂_liftRel {refs : List (α ⊕ σ)} {refs' : List (β ⊕ ρ)} (h : List.Forall₂ (Sum.LiftRel A S) refs refs')
    (hright : List.Forall₂ S' (refs.filterMap Sum.getRight?) (refs'.filterMap Sum.getRight?)) :
    List.Forall₂ (Sum.LiftRel A S') refs refs' := by
  induction h with
  | nil => exact .nil
  | cons hab _ ih =>
    cases hab with
    | inl hab => exact .cons (.inl hab) (ih hright)
    | inr _ =>
      obtain _ | ⟨hsr, hright⟩ := hright
      exact .cons (.inr hsr) (ih hright)

/-- How signatures are related can be told apart from the rest. -/
theorem TypeForm.Related.of_signatureRefs {x : TypeForm α σ} {y : TypeForm β ρ} (h : x.Related A S y)
    (hrefs : List.Forall₂ S' x.signatureRefs y.signatureRefs) : x.Related A S' y :=
  h.of_references (forall₂_liftRel h.references hrefs)

theorem forall₂_imp_mem {R R' : α → β → Prop} {l : List α} {l' : List β} (h : List.Forall₂ R l l')
    (himp : ∀ a ∈ l, ∀ b, R a b → R' a b) : List.Forall₂ R' l l' := by
  induction h with
  | nil => exact .nil
  | cons hab _ ih =>
    obtain ⟨ha, himp⟩ := List.forall_mem_cons.1 himp
    exact .cons (ha _ hab) (ih himp)

/-- References need to be related in the new sense only where they stand in the form. -/
theorem TypeForm.Related.imp_mem {x : TypeForm α σ} {y : TypeForm β ρ} (h : x.Related A S y)
    (hA : ∀ a ∈ x.typeRefs, ∀ b, A a b → A' a b) (hS : ∀ s ∈ x.signatureRefs, ∀ r, S s r → S' s r) :
    x.Related A' S' y := by
  refine h.of_references (forall₂_imp_mem h.references ?_)
  rintro _ hmem _ (hab | hsr)
  · exact .inl (hA _ (List.mem_filterMap.2 ⟨_, hmem, rfl⟩) _ hab)
  · exact .inr (hS _ (List.mem_filterMap.2 ⟨_, hmem, rfl⟩) _ hsr)

end TypeEnv
