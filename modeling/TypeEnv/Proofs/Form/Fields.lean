import TypeEnv.Proofs.Form.Traversal

/-! What the traversals of forms return: a form related to the one they were given by whatever
relates each result to its reference, and its references are the results. -/

namespace TypeEnv

variable {α β σ ρ : Type} {A : α → β → Prop} {S : σ → ρ → Prop}

/-! ### Related parts, by their references -/

theorem forall₂_append_iff {γ δ : Type} {R : γ → δ → Prop} {l l' : List γ} {r r' : List δ}
    (h : r.length = l.length) :
    List.Forall₂ R (l ++ l') (r ++ r') ↔ List.Forall₂ R l r ∧ List.Forall₂ R l' r' := by
  induction l generalizing r with
  | nil => simp [List.eq_nil_of_length_eq_zero h]
  | cons a l ih =>
    rcases r with _ | ⟨b, r⟩
    · simp at h
    · simp [ih (by simpa using h), and_assoc]

theorem OrderedMap.related_iff {κ : Type} {x : OrderedMap κ α} {y : OrderedMap κ β} :
    x.Related A y ↔ y.keys = x.keys ∧ List.Forall₂ A x.values y.values := by
  simp only [OrderedMap.Related, OrderedMap.keys, OrderedMap.values]
  generalize x.entries = entries
  generalize y.entries = entries'
  induction entries generalizing entries' with
  | nil => cases entries' <;> simp
  | cons entry entries ih =>
    rcases entries' with _ | ⟨entry', entries'⟩
    · simp
    · simp only [List.forall₂_cons, ih, List.map_cons, List.cons.injEq, eq_comm (a := entry.1)]
      tauto

theorem OrderedMap.length_values {κ : Type} {x : OrderedMap κ α} {y : OrderedMap κ β}
    (h : y.keys = x.keys) : y.values.length = x.values.length := by
  simpa [OrderedMap.keys, OrderedMap.values] using congrArg List.length h

/-! ### Exchanges -/

variable {γ δ ε : Type} {m : Type → Type} [Monad m] (onType : String → α → m β)
  (onSignature : σ → m ρ)

/-- `run` visits `refs` in turn and the results are the references of what it returns, which is
related in the sense of `rel` to what it was given by whatever relates the results to `refs`. -/
def Exchanges (refs : List (α ⊕ σ)) (run : m γ) (refs' : γ → List (β ⊕ ρ))
    (rel : (α → β → Prop) → (σ → ρ → Prop) → γ → Prop) : Prop :=
  ∃ places, places.map Prod.snd = refs ∧ Traverses onType onSignature places run fun results y =>
    refs' y = results ∧ ∀ A S, List.Forall₂ (Sum.LiftRel A S) refs results → rel A S y

namespace Exchanges

variable {onType onSignature} {refs refs' : List (α ⊕ σ)} {run : m γ} {run' : m δ}
  {refsOf : γ → List (β ⊕ ρ)} {refsOf' : δ → List (β ⊕ ρ)} {refsOf'' : ε → List (β ⊕ ρ)}
  {rel : (α → β → Prop) → (σ → ρ → Prop) → γ → Prop}
  {rel' : (α → β → Prop) → (σ → ρ → Prop) → δ → Prop}
  {rel'' : (α → β → Prop) → (σ → ρ → Prop) → ε → Prop} [LawfulMonad m]

theorem none (value : γ) (hrefs : refsOf value = []) (hrel : ∀ A S, rel A S value) :
    Exchanges onType onSignature [] (Pure.pure value : m γ) refsOf rel := by
  refine ⟨[], rfl, (Traverses.pure _).imp ?_⟩
  rintro _ _ ⟨rfl, rfl⟩
  exact ⟨hrefs, fun A S _ => hrel A S⟩

theorem type [Inhabited β] (field : String) (a : α) :
    Exchanges onType onSignature [.inl a] (onType field a) (fun b => [.inl b])
      fun A _ b => A a b := by
  refine ⟨_, rfl, (Traverses.type field a).imp ?_⟩
  rintro _ b rfl
  exact ⟨rfl, fun A S h => by simpa using h⟩

theorem types (field : String) (as : List α) :
    Exchanges onType onSignature (as.map .inl) (as.mapM (onType field)) (List.map .inl)
      fun A _ bs => List.Forall₂ A as bs := by
  refine ⟨_, by simp [Function.comp_def], (Traverses.types field as).imp ?_⟩
  rintro _ bs ⟨rfl, _⟩
  exact ⟨rfl, fun A S h => forall₂_inl.1 h⟩

theorem optional (field : String) (a : Option α) :
    Exchanges onType onSignature (a.toList.map .inl) (a.mapM (onType field))
      (fun b => b.toList.map .inl) fun A _ b => Option.Rel A a b := by
  refine ⟨_, by simp [Function.comp_def], (Traverses.optional field a).imp ?_⟩
  rintro _ b ⟨rfl, _⟩
  exact ⟨rfl, fun A S h => forall₂_toList.1 (forall₂_inl.1 h)⟩

theorem wrap (h : Exchanges onType onSignature refs run refsOf rel) (f : γ → ε)
    (hrefs : ∀ y, refsOf'' (f y) = refsOf y) (hrel : ∀ A S y, rel A S y → rel'' A S (f y)) :
    Exchanges onType onSignature refs (do return f (← run)) refsOf'' rel'' := by
  obtain ⟨places, hplaces, hrun⟩ := h
  refine ⟨_, ?_, (hrun.bind fun _ => .pure _).imp ?_⟩
  · simpa using hplaces
  · rintro _ _ ⟨_, _, _, rfl, ⟨rfl, h⟩, rfl, rfl⟩
    exact ⟨by simp [hrefs], fun A S hall => hrel A S _ (h A S (by simpa using hall))⟩

theorem both (h : Exchanges onType onSignature refs run refsOf rel)
    (h' : Exchanges onType onSignature refs' run' refsOf' rel') (f : γ → δ → ε)
    (hrefs : ∀ y z, refsOf'' (f y z) = refsOf y ++ refsOf' z)
    (hrel : ∀ A S y z, rel A S y → rel' A S z → rel'' A S (f y z)) :
    Exchanges onType onSignature (refs ++ refs') (do return f (← run) (← run')) refsOf'' rel'' := by
  obtain ⟨places, hplaces, hrun⟩ := h
  obtain ⟨places', hplaces', hrun'⟩ := h'
  refine ⟨_, ?_, (hrun.length.bind fun _ => hrun'.bind fun _ => .pure _).imp ?_⟩
  · simp [hplaces, hplaces']
  · rintro _ _ ⟨_, _, _, rfl, ⟨hlen, rfl, h⟩, _, _, _, rfl, ⟨rfl, h'⟩, rfl, rfl⟩
    refine ⟨by simp [hrefs], fun A S hall => ?_⟩
    rw [← List.length_map Prod.snd, hplaces] at hlen
    rw [List.append_nil, forall₂_append_iff hlen] at hall
    exact hrel A S _ _ (h A S hall.1) (h' A S hall.2)

end Exchanges

/-! ### Forms -/

variable [LawfulMonad m] [Inhabited β]

theorem Shape.exchanges (x : Shape α σ) :
    Exchanges onType onSignature x.references (x.traverse onType onSignature) references
      fun A S y => x.Related A S y := by
  refine ⟨_, ?_, (Traverses.types _ _ |>.bind fun _ => .bind (.types _ _) fun _ =>
    .bind (.properties (fun name => s!"declaredProperties.{name}") _) fun _ =>
    .bind (.signatures _) fun _ => .bind (.signatures _) fun _ =>
    .bind (.optional _ _) fun _ => .bind (.optional _ _) fun _ => .pure _).imp ?_⟩
  · simp [Shape.references, OrderedMap.values, Function.comp_def]
  · rintro _ _ ⟨_, _, _, rfl, ⟨rfl, h1⟩, _, _, _, rfl, ⟨rfl, h2⟩, _, _, _, rfl, ⟨rfl, h3⟩,
      _, _, _, rfl, ⟨rfl, h4⟩, _, _, _, rfl, ⟨rfl, h5⟩, _, _, _, rfl, ⟨rfl, h6⟩,
      _, _, _, rfl, ⟨rfl, h7⟩, rfl, rfl⟩
    refine ⟨by simp [Shape.references], fun A S h => ?_⟩
    have h3' := OrderedMap.length_values h3
    simp (disch := simp [*]) only [Shape.references, List.map_append, List.append_assoc,
      forall₂_append_iff, forall₂_inl, forall₂_inr, forall₂_toList, List.append_nil] at h
    obtain ⟨r1, r2, r3, r4, r5, r6, r7⟩ := h
    exact ⟨r1, r2, OrderedMap.related_iff.2 ⟨h3, r3⟩, r4, r5, r6, r7⟩

theorem ClassForm.exchanges (x : ClassForm α σ) :
    Exchanges onType onSignature x.references (x.traverse onType onSignature) references
      fun A S y => x.Related A S y := by
  obtain ⟨places, hplaces, hshape⟩ := x.shape.exchanges onType onSignature
  refine ⟨_, ?_, (hshape.length.bind fun _ =>
    .bind (.properties (fun name => s!"instanceProperties.{name}") _) fun _ =>
    .bind (.properties (fun name => s!"staticProperties.{name}") _) fun _ =>
    .bind (.optional _ _) fun _ => .bind (.types _ _) fun _ => .pure _).imp ?_⟩
  · simp [ClassForm.references, hplaces, OrderedMap.values, Function.comp_def]
  · rintro _ _ ⟨_, _, _, rfl, ⟨h1, rfl, hrel⟩, _, _, _, rfl, ⟨rfl, h2⟩, _, _, _, rfl, ⟨rfl, h3⟩,
      _, _, _, rfl, ⟨rfl, h4⟩, _, _, _, rfl, ⟨rfl, h5⟩, rfl, rfl⟩
    refine ⟨by simp [ClassForm.references], fun A S h => ?_⟩
    rw [← List.length_map Prod.snd, hplaces] at h1
    have h2' := OrderedMap.length_values h2
    have h3' := OrderedMap.length_values h3
    simp (disch := simp [*]) only [ClassForm.references, List.map_append, List.append_assoc,
      forall₂_append_iff, forall₂_inl, forall₂_toList, List.append_nil] at h
    obtain ⟨r1, r2, r3, r4, r5⟩ := h
    exact ⟨hrel A S r1, OrderedMap.related_iff.2 ⟨h2, r2⟩, OrderedMap.related_iff.2 ⟨h3, r3⟩, r4, r5⟩

theorem TypeForm.exchanges (x : TypeForm α σ) :
    Exchanges onType onSignature x.references (x.traverse onType onSignature) references
      fun A S y => x.Related A S y := by
  cases x with
  | simple kind => exact .none _ rfl fun _ _ => .simple kind
  | stringLiteral text => exact .none _ rfl fun _ _ => .stringLiteral text
  | booleanLiteral value => exact .none _ rfl fun _ _ => .booleanLiteral value
  | numberLiteral value => exact .none _ rfl fun _ _ => .numberLiteral value
  | interface shape =>
    exact (shape.exchanges onType onSignature).wrap TypeForm.interface (fun _ => rfl) fun _ _ _ => .interface
  | classDeclaration form =>
    exact (form.exchanges onType onSignature).wrap TypeForm.classDeclaration (fun _ => rfl)
      fun _ _ _ => .classDeclaration
  | classInstance classType =>
    exact (Exchanges.type "classType" classType).wrap TypeForm.classInstance (fun _ => rfl)
      fun _ _ _ => .classInstance
  | generic shape target typeArguments =>
    obtain ⟨places, hplaces, hshape⟩ := shape.exchanges onType onSignature
    refine ⟨_, ?_, (hshape.length.bind fun _ => .bind (.type _ _) fun _ =>
      .bind (.types _ _) fun _ => .pure _).imp ?_⟩
    · simp [references, hplaces, Function.comp_def]
    · rintro _ _ ⟨_, _, _, rfl, ⟨h1, rfl, hrel⟩, _, _, _, rfl, rfl, _, _, _, rfl, ⟨rfl, _⟩, rfl, rfl⟩
      refine ⟨by simp [references], fun A S h => ?_⟩
      rw [← List.length_map Prod.snd, hplaces] at h1
      simp (disch := simp [*]) only [references, forall₂_append_iff, List.append_nil,
        List.map_cons, List.singleton_append, List.forall₂_cons, forall₂_inl,
        Sum.liftRel_inl_inl] at h
      exact .generic (hrel A S h.1) h.2.1 h.2.2
  | reference target typeArguments =>
    exact (Exchanges.type "target" target).both (.types "typeArguments" typeArguments)
      TypeForm.reference
      (fun _ _ => rfl) fun _ _ _ _ => .reference
  | tuple elements minLength =>
    exact (Exchanges.types "elementTypes" elements).wrap (TypeForm.tuple · minLength) (fun _ => rfl)
      fun _ _ _ => .tuple minLength
  | union elements =>
    exact (Exchanges.types "elements" elements).wrap TypeForm.union (fun _ => rfl) fun _ _ _ => .union
  | intersection elements =>
    exact (Exchanges.types "elements" elements).wrap TypeForm.intersection (fun _ => rfl)
      fun _ _ _ => .intersection
  | typeParameter constraint =>
    exact (Exchanges.optional "constraint" constraint).wrap TypeForm.typeParameter (fun _ => rfl)
      fun _ _ _ => .typeParameter
  | thisType constraint =>
    exact (Exchanges.optional "constraint" constraint).wrap TypeForm.thisType (fun _ => rfl)
      fun _ _ _ => .thisType
  | index type =>
    exact (Exchanges.type "type" type).wrap TypeForm.index (fun _ => rfl) fun _ _ _ => .index
  | indexedAccess objectType indexType =>
    exact (Exchanges.type "objectType" objectType).both (.type "indexType" indexType)
      TypeForm.indexedAccess
      (fun _ _ => rfl) fun _ _ _ _ => .indexedAccess
  | anonymous => exact .none _ rfl fun _ _ => .anonymous

end TypeEnv
