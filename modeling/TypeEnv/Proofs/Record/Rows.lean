import TypeEnv.Proofs.Form.Change
import TypeEnv.Proofs.Record.Traversal

/-! Signature trees laid out flat. The signatures of a tree are numbered in the order in which they are
stored, each after its target and its union members, so that the number of a signature follows from
where its tree starts. Trees that are alike in everything but what they mention have rows that are alike
in the same sense, wherever the two start. -/

namespace TypeEnv

variable {α β γ σ ρ τ : Type} {A : α → β → Prop} {S : σ → ρ → Prop}

/-- The same signature but for its references. -/
structure Signature.Related (A : α → β → Prop) (S : σ → ρ → Prop) (x : Signature α σ)
    (y : Signature β ρ) : Prop where
  header : x.header.Related A y.header
  target : Option.Rel S x.target y.target
  unionSignatures : List.Forall₂ S x.unionSignatures y.unionSignatures

namespace Signature.Related

variable {x : Signature α σ} {y : Signature β ρ}

theorem imp {S' : σ → ρ → Prop} (h : x.Related A S y) (hS : ∀ s r, S s r → S' s r) :
    x.Related A S' y where
  header := h.header
  target := rel_imp h.target hS
  unionSignatures := h.unionSignatures.imp hS

theorem flip (h : x.Related A S y) : y.Related (fun b a => A a b) (fun r s => S s r) x where
  header := h.header.flip
  target := rel_flip h.target
  unionSignatures := h.unionSignatures.flip

theorem trans {B : β → γ → Prop} {C : α → γ → Prop} {T : ρ → τ → Prop} {U : σ → τ → Prop}
    {z : Signature γ τ} (hA : ∀ a b c, A a b → B b c → C a c) (hS : ∀ a b c, S a b → T b c → U a c)
    (h : x.Related A S y) (h' : y.Related B T z) : x.Related C U z where
  header := h.header.trans hA h'.header
  target := rel_trans hS h.target h'.target
  unionSignatures := forall₂_trans hS h.unionSignatures h'.unionSignatures

end Signature.Related

theorem SignatureHeader.Related.imp {A' : α → β → Prop} {x : SignatureHeader α} {y : SignatureHeader β}
    (h : x.Related A y) (hA : ∀ a b, A a b → A' a b) : x.Related A' y where
  typeParameters := h.typeParameters.imp hA
  parameters := h.parameters.imp fun _ _ hpq => ⟨hpq.1, hA _ _ hpq.2⟩
  returns := hA _ _ h.returns
  minArgumentCount := h.minArgumentCount
  hasRestParameter := h.hasRestParameter
  hasStringLiterals := h.hasStringLiterals
  isolated := rel_imp h.isolated hA

theorem SignatureHeader.Related.mentions {x : SignatureHeader α} {y : SignatureHeader β}
    (h : x.Related A y) : List.Forall₂ A x.mentions y.mentions := by
  refine List.rel_append (List.rel_append (List.rel_append ?_ h.typeParameters) ?_) ?_
  · simp only [List.forall₂_map_left_iff, List.forall₂_map_right_iff]
    exact h.parameters.imp fun _ _ hpq => hpq.2
  · exact .cons h.returns .nil
  · exact forall₂_toList.2 h.isolated

namespace SignatureTree

/-! ### Numbers -/

mutual

/-- How many signatures there are in a tree. -/
def count : SignatureTree α → Nat
  | .node _ target unions => countOfTarget target + countOfList unions + 1

def countOfTarget : Option (SignatureTree α) → Nat
  | none => 0
  | some tree => tree.count

def countOfList : List (SignatureTree α) → Nat
  | [] => 0
  | tree :: trees => tree.count + countOfList trees

end

/-- The number of the root of a tree that starts at `start`; it comes last. -/
def root (start : Nat) : SignatureTree α → Nat
  | .node _ target unions => start + (countOfTarget target + countOfList unions)

/-- The roots of trees that are numbered one after the other. -/
def roots (start : Nat) : List (SignatureTree α) → List Nat
  | [] => []
  | tree :: trees => tree.root start :: roots (start + tree.count) trees

mutual

/-- The signatures of a tree in the order of their numbers, which stand for them. -/
def rows (start : Nat) : SignatureTree α → List (Signature α Nat)
  | .node header target unions =>
    rowsOfTarget start target ++ (rowsOfList (start + countOfTarget target) unions ++
      [{ header
         target := target.map (root start)
         unionSignatures := roots (start + countOfTarget target) unions }])

def rowsOfTarget (start : Nat) : Option (SignatureTree α) → List (Signature α Nat)
  | none => []
  | some tree => tree.rows start

def rowsOfList (start : Nat) : List (SignatureTree α) → List (Signature α Nat)
  | [] => []
  | tree :: trees => tree.rows start ++ rowsOfList (start + tree.count) trees

end

mutual

theorem length_rows (start : Nat) : ∀ tree : SignatureTree α, (tree.rows start).length = tree.count
  | .node header target unions => by
    simp only [rows, count, List.length_append, length_rowsOfTarget, length_rowsOfList,
      List.length_singleton, Nat.add_assoc]

theorem length_rowsOfTarget (start : Nat) : ∀ target : Option (SignatureTree α),
    (rowsOfTarget start target).length = countOfTarget target
  | none => rfl
  | some tree => length_rows start tree

theorem length_rowsOfList (start : Nat) : ∀ trees : List (SignatureTree α),
    (rowsOfList start trees).length = countOfList trees
  | [] => rfl
  | tree :: trees => by
    rw [rowsOfList, List.length_append, length_rows start tree, length_rowsOfList _ trees, countOfList]

end

mutual

theorem mentions_eq (start : Nat) : ∀ tree : SignatureTree α,
    tree.mentions = (tree.rows start).flatMap (·.header.mentions)
  | .node header target unions => by
    rw [mentions_node, rows, List.flatMap_append, List.flatMap_append, ← mentionsOfTarget_eq start target,
      ← mentionsOfList_eq _ unions, List.flatMap_singleton]

theorem mentionsOfTarget_eq (start : Nat) : ∀ target : Option (SignatureTree α),
    mentionsOfTarget target = (rowsOfTarget start target).flatMap (·.header.mentions)
  | none => rfl
  | some tree => mentions_eq start tree

theorem mentionsOfList_eq (start : Nat) : ∀ trees : List (SignatureTree α),
    mentionsOfList trees = (rowsOfList start trees).flatMap (·.header.mentions)
  | [] => rfl
  | tree :: trees => by
    rw [mentionsOfList, rowsOfList, List.flatMap_append, ← mentions_eq start tree, ← mentionsOfList_eq _ trees]

end

/-! ### Trees that are alike -/

/-- The same number but for where the two start. -/
def Moved (start start' n : Nat) (i i' : Nat) : Prop :=
  ∃ j < n, i = start + j ∧ i' = start' + j

theorem Moved.inside {start start' a m n i i' : Nat} (hle : a + m ≤ n)
    (h : Moved (start + a) (start' + a) m i i') : Moved start start' n i i' := by
  obtain ⟨j, hj, rfl, rfl⟩ := h
  exact ⟨a + j, by omega, by omega, by omega⟩

theorem Moved.of_le {start start' m n i i' : Nat} (hle : m ≤ n) (h : Moved start start' m i i') :
    Moved start start' n i i' := by
  obtain ⟨j, hj, rfl, rfl⟩ := h
  exact ⟨j, by omega, rfl, rfl⟩

/-- Trees of the same shape whose signatures are alike but for what they mention. -/
structure Alike (A : α → β → Prop) (tree : SignatureTree α) (tree' : SignatureTree β) : Prop where
  count_eq : tree.count = tree'.count
  rows : ∀ start start', List.Forall₂ (Signature.Related A (Moved start start' tree.count))
    (tree.rows start) (tree'.rows start')

theorem Alike.flip {tree : SignatureTree α} {tree' : SignatureTree β} (h : tree.Alike A tree') :
    tree'.Alike (fun b a => A a b) tree where
  count_eq := h.count_eq.symm
  rows start start' := by
    refine (h.rows start' start).flip.imp fun _ _ hrow => hrow.flip.imp ?_
    rintro _ _ ⟨j, hj, rfl, rfl⟩
    exact ⟨j, h.count_eq ▸ hj, rfl, rfl⟩

theorem Alike.trans {B : β → γ → Prop} {C : α → γ → Prop} {tree : SignatureTree α}
    {tree' : SignatureTree β} {tree'' : SignatureTree γ} (hA : ∀ a b c, A a b → B b c → C a c)
    (h : tree.Alike A tree') (h' : tree'.Alike B tree'') : tree.Alike C tree'' where
  count_eq := h.count_eq.trans h'.count_eq
  rows start start'' := by
    refine forall₂_trans (fun _ _ _ hrow hrow' => hrow.trans hA ?_ hrow') (h.rows start 0) (h'.rows 0 start'')
    rintro _ _ _ ⟨j, hj, rfl, hmid⟩ ⟨j', -, hmid', rfl⟩
    exact ⟨j, hj, rfl, by omega⟩

theorem Alike.mentions {tree : SignatureTree α} {tree' : SignatureTree β} (h : tree.Alike A tree') :
    List.Forall₂ A tree.mentions tree'.mentions := by
  rw [mentions_eq 0, mentions_eq 0]
  exact List.rel_flatMap (h.rows 0 0) fun _ _ hrow => hrow.header.mentions

theorem Alike.root {tree : SignatureTree α} {tree' : SignatureTree β} (h : tree.Alike A tree')
    (start start' : Nat) : Moved start start' tree.count (tree.root start) (tree'.root start') := by
  have hcount := h.count_eq
  cases tree with
  | node header target unions =>
    cases tree' with
    | node header' target' unions' =>
      simp only [count, Nat.add_right_cancel_iff] at hcount
      exact ⟨_, Nat.lt_succ_self _, rfl, by rw [SignatureTree.root, hcount]⟩

section Lists

variable {trees : List (SignatureTree α)} {trees' : List (SignatureTree β)}
  (h : List.Forall₂ (Alike A) trees trees')

include h

theorem countOfList_eq : countOfList trees = countOfList trees' := by
  induction h with
  | nil => rfl
  | cons htree _ ih => rw [countOfList, countOfList, htree.count_eq, ih]

/-- The roots of trees that are alike have the same numbers but for where the trees start. -/
theorem roots_moved (start start' : Nat) :
    List.Forall₂ (Moved start start' (countOfList trees)) (roots start trees) (roots start' trees') := by
  induction h generalizing start start' with
  | nil => exact .nil
  | @cons tree tree' trees trees' htree _ ih =>
    refine .cons ((htree.root start start').of_le (Nat.le_add_right _ _)) ?_
    rw [← htree.count_eq]
    exact (ih _ _).imp fun _ _ => Moved.inside (Nat.le_refl _)

theorem rowsOfList_related (start start' : Nat) :
    List.Forall₂ (Signature.Related A (Moved start start' (countOfList trees)))
      (rowsOfList start trees) (rowsOfList start' trees') := by
  induction h generalizing start start' with
  | nil => exact .nil
  | @cons tree tree' trees trees' htree _ ih =>
    rw [rowsOfList, rowsOfList, ← htree.count_eq]
    refine List.rel_append ?_ ?_
    · exact (htree.rows start start').imp fun _ _ hrow =>
        hrow.imp fun _ _ => Moved.of_le (Nat.le_add_right _ _)
    · exact (ih _ _).imp fun _ _ hrow => hrow.imp fun _ _ => Moved.inside (Nat.le_refl _)

end Lists

/-- Trees with headers that are alike, and targets and union members that are alike. -/
theorem Alike.node {header : SignatureHeader α} {header' : SignatureHeader β}
    {target : Option (SignatureTree α)} {target' : Option (SignatureTree β)}
    {unions : List (SignatureTree α)} {unions' : List (SignatureTree β)} (hheader : header.Related A header')
    (htarget : Option.Rel (Alike A) target target') (hunions : List.Forall₂ (Alike A) unions unions') :
    (SignatureTree.node header target unions).Alike A (.node header' target' unions') := by
  have hcount : countOfTarget target = countOfTarget target' := by
    cases htarget with
    | none => rfl
    | some h => exact h.count_eq
  refine ⟨by rw [count, count, hcount, countOfList_eq hunions], fun start start' => ?_⟩
  rw [SignatureTree.rows, SignatureTree.rows, ← hcount]
  refine List.rel_append ?_ (List.rel_append ?_ (.cons ⟨hheader, ?_, ?_⟩ .nil))
  · cases htarget with
    | none => exact .nil
    | some h =>
      exact (h.rows start start').imp fun _ _ hrow => hrow.imp fun _ _ => Moved.of_le (by
        rw [count, countOfTarget]
        omega)
  · exact (rowsOfList_related hunions _ _).imp fun _ _ hrow => hrow.imp fun _ _ =>
      Moved.inside (by rw [count]; omega)
  · cases htarget with
    | none => exact .none
    | some h => exact .some ((h.root start start').of_le (by rw [count, countOfTarget]; omega))
  · exact (roots_moved hunions _ _).imp fun _ _ => Moved.inside (by rw [count]; omega)

mutual

/-- What a tree becomes when it is copied is alike. -/
theorem alike_of_becomes : ∀ (tree : SignatureTree α) (tree' : SignatureTree β),
    tree.Becomes A Copied tree' → tree.Alike A tree'
  | .node header target unions, tree', h => by
    obtain ⟨signature, rfl, hheader, htarget, hunions⟩ := h
    exact .node hheader (alike_of_targetBecomes target _ htarget) (alike_of_listBecomes unions _ hunions)

theorem alike_of_targetBecomes : ∀ (target : Option (SignatureTree α)) (target' : Option (SignatureTree β)),
    targetBecomes A Copied target target' → Option.Rel (Alike A) target target'
  | none, _, h => by
    obtain rfl := h
    exact .none
  | some tree, _, h => by
    obtain ⟨tree', rfl, h⟩ := h
    exact .some (alike_of_becomes tree tree' h)

theorem alike_of_listBecomes : ∀ (trees : List (SignatureTree α)) (trees' : List (SignatureTree β)),
    listBecomes A Copied trees trees' → List.Forall₂ (Alike A) trees trees'
  | [], _, h => by
    obtain rfl := h
    exact .nil
  | tree :: trees, _, h => by
    obtain ⟨tree', trees', rfl, h, h'⟩ := h
    exact .cons (alike_of_becomes tree tree' h) (alike_of_listBecomes trees trees' h')

end

end SignatureTree

/-! ### Records -/

theorem ClassRecord.Related.references {x : ClassRecord α σ} {y : ClassRecord β ρ} (h : x.Related A S y) :
    List.Forall₂ (Sum.LiftRel A S) x.references y.references := by
  refine List.rel_append (List.rel_append h.shape.references (forall₂_inr.2 h.constructors)) (forall₂_inl.2 ?_)
  refine List.rel_append (List.rel_append (List.rel_append ?_ h.staticProperties.values) ?_) h.typeArguments
  · have hproperties := h.instanceProperties
    generalize x.instanceProperties = a at hproperties ⊢
    generalize y.instanceProperties = b at hproperties ⊢
    cases hproperties with
    | none => exact .nil
    | some h => exact h.values
  · exact forall₂_toList.2 h.target

theorem Record.Related.references {x : Record α σ} {y : Record β ρ} (h : x.Related A S y) :
    List.Forall₂ (Sum.LiftRel A S) x.references y.references := by
  cases h with
  | whole h => exact TypeForm.Related.references h
  | classDeclaration h => exact h.references
  | tuple _ h => exact forall₂_inl.2 h

/-- Records whose signatures are alike mention the same but for what is renamed. -/
theorem Record.Related.mentions {x : NestedRecord α} {y : NestedRecord β}
    (h : x.Related A (SignatureTree.Alike A) y) : List.Forall₂ A x.mentions y.mentions := by
  rw [mentions_eq, mentions_eq]
  refine List.rel_flatMap h.references ?_
  rintro _ _ (hab | htree)
  · exact .cons hab .nil
  · exact htree.mentions

end TypeEnv
