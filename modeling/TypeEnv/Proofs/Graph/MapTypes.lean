import TypeEnv.Proofs.Form.Fields
import TypeEnv.Resolver

/-! Exchanging the type references of nodes and signatures by a function: every reference becomes
its image, in place, and nothing else changes. -/

namespace TypeEnv

variable {α β σ ρ : Type} {A : α → β → Prop} {S : σ → ρ → Prop}

theorem TypeForm.mapTypes_spec [Inhabited β] (f : α → β) (x : TypeForm α σ) :
    (x.mapTypes f).references = x.references.map (Sum.map f id) ∧
      x.Related (fun a b => f a = b) (· = ·) (x.mapTypes f) := by
  obtain ⟨places, hplaces, build, hrun, hpost⟩ :=
    x.exchanges (m := Id) (fun _ a => pure (f a)) (pure : σ → Id σ)
  have hvisit : visit (m := Id) (fun _ a => pure (f a)) (pure : σ → Id σ) =
      fun place => pure (Sum.map f id place.2) := by
    funext ⟨field, ref⟩
    cases ref <;> rfl
  have hresult : x.mapTypes f = build (x.references.map (Sum.map f id)) := by
    rw [TypeForm.mapTypes, TypeForm.mapTypesM, hrun, hvisit, List.mapM_pure, ← hplaces, List.map_map]
    rfl
  have h := hpost (x.references.map (Sum.map f id)) (by simp [← hplaces, Function.comp_def])
  rw [hresult]
  refine ⟨h.1, h.2 _ _ ?_⟩
  rw [List.forall₂_map_right_iff, List.forall₂_same]
  rintro (a | s) _ <;> simp

theorem TypeForm.typeRefs_mapTypes [Inhabited β] (f : α → β) (x : TypeForm α σ) :
    (x.mapTypes f).typeRefs = x.typeRefs.map f := by
  simp only [TypeForm.typeRefs, (x.mapTypes_spec f).1, List.filterMap_map, List.map_filterMap]
  congr 1; funext r
  cases r <;> rfl

theorem TypeForm.signatureRefs_mapTypes [Inhabited β] (f : α → β) (x : TypeForm α σ) :
    (x.mapTypes f).signatureRefs = x.signatureRefs := by
  have h := (x.mapTypes_spec f).2.signatureRefs
  rw [List.forall₂_eq_eq_eq] at h
  exact h.symm

theorem SignatureHeader.mapTypesM_pure (f : α → β) (x : SignatureHeader α) :
    Id.run (x.mapTypesM fun a => pure (f a)) = { x with
      typeParameters := x.typeParameters.map f
      parameters := x.parameters.map fun p => ⟨p.name, f p.type⟩
      returns := f x.returns
      isolated := x.isolated.map f } := by
  simp only [SignatureHeader.mapTypesM, List.mapM_pure, pure_bind]
  cases x.isolated <;> rfl

theorem Signature.mapTypes_header (f : α → β) (x : Signature α σ) :
    x.header.Related (fun a b => f a = b) (x.mapTypes f).header := by
  change x.header.Related _ (Id.run (x.header.mapTypesM fun a => pure (f a)))
  rw [SignatureHeader.mapTypesM_pure]
  refine ⟨by simp, by simp, rfl, rfl, rfl, rfl, ?_⟩
  cases x.header.isolated <;> constructor
  rfl

theorem Signature.typeRefs_mapTypes (f : α → β) (x : Signature α σ) :
    (x.mapTypes f).typeRefs = x.typeRefs.map f := by
  have h := (x.mapTypes_header f).typeRefs
  rw [← List.forall₂_map_left_iff (R := fun b c : β => b = c), List.forall₂_eq_eq_eq] at h
  exact h.symm

/-! ### Nodes and graphs -/

@[simp] theorem Node.mapTypes_form (f : TypeId → TypeId) (x : TypeForm TypeId SignatureId) :
    (Node.form x).mapTypes f = .form (x.mapTypes f) := rfl

@[simp] theorem Node.mapTypes_placeholder (f : TypeId → TypeId) (id : RecordId) :
    (Node.placeholder id).mapTypes f = .placeholder id := rfl

theorem Node.typeRefs_mapTypes (f : TypeId → TypeId) (node : Node) :
    (node.mapTypes f).typeRefs = node.typeRefs.map f := by
  cases node with
  | form x => exact x.typeRefs_mapTypes f
  | placeholder id => rfl

namespace TypeGraph

variable (graph : TypeGraph) (f : TypeId → TypeId)

@[simp] theorem node?_mapTypes (id : TypeId) :
    (graph.mapTypes f).node? id = (graph.node? id).map (·.mapTypes f) := by
  simp [node?, mapTypes]

@[simp] theorem registered?_mapTypes (id : RecordId) :
    (graph.mapTypes f).registered? id = (graph.registered? id).map f := by
  simp [registered?, mapTypes]

end TypeGraph

/-! ### Signature trees

Exchanging the type references of stored signatures leaves the trees they make up standing. -/

section Trees

variable {A C : α → β → Prop} {made made' : Signature β ρ → ρ → Prop} {f : β → β}

mutual

theorem SignatureTree.becomes_mapTypes (hrefs : ∀ a b, A a b → C a (f b))
    (hmade : ∀ signature s, made signature s → made' (signature.mapTypes f) s) :
    ∀ (tree : SignatureTree α) (s : ρ), tree.Becomes A made s → tree.Becomes C made' s
  | .node _ target unions, _, ⟨signature, hs, hheader, htarget, hunions⟩ =>
    ⟨signature.mapTypes f, hmade _ _ hs,
      hheader.trans (fun a b _ hab hbc => hbc ▸ hrefs a b hab) (signature.mapTypes_header f),
      SignatureTree.targetBecomes_mapTypes hrefs hmade target _ htarget,
      SignatureTree.listBecomes_mapTypes hrefs hmade unions _ hunions⟩

theorem SignatureTree.targetBecomes_mapTypes (hrefs : ∀ a b, A a b → C a (f b))
    (hmade : ∀ signature s, made signature s → made' (signature.mapTypes f) s) :
    ∀ (target : Option (SignatureTree α)) (s : Option ρ),
      targetBecomes A made target s → targetBecomes C made' target s
  | none, _, h => h
  | some tree, _, ⟨s, hs, h⟩ => ⟨s, hs, SignatureTree.becomes_mapTypes hrefs hmade tree s h⟩

theorem SignatureTree.listBecomes_mapTypes (hrefs : ∀ a b, A a b → C a (f b))
    (hmade : ∀ signature s, made signature s → made' (signature.mapTypes f) s) :
    ∀ (trees : List (SignatureTree α)) (ss : List ρ), listBecomes A made trees ss → listBecomes C made' trees ss
  | [], _, h => h
  | tree :: trees, _, ⟨s, rest, hss, h, hrest⟩ =>
    ⟨s, rest, hss, SignatureTree.becomes_mapTypes hrefs hmade tree s h,
      SignatureTree.listBecomes_mapTypes hrefs hmade trees rest hrest⟩

end

end Trees

end TypeEnv
