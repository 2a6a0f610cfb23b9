import TypeEnv.Proofs.Record.Rows
import TypeEnv.Proofs.Resolver.Steps

/-! Where signatures are stored. What a record holds is stored row by row, the signatures of each tree
before its root, so the handle of every signature follows from how many there were before. -/

namespace TypeEnv

theorem Record.signatureRefs_form {α σ : Type} (record : Record α σ) :
    record.form.signatureRefs = record.references.filterMap Sum.getRight? := by
  cases record with
  | whole form => rfl
  | classDeclaration record =>
    have hnone : (Sum.getRight? ∘ Sum.inl : α → Option σ) = fun _ => none := rfl
    simp [Record.form, TypeForm.signatureRefs, TypeForm.references, ClassForm.references, ClassRecord.form,
      Shape.references, Record.references, ClassRecord.references, List.filterMap_append, hnone]
  | tuple elements minLength => rfl

namespace Resolver

open Stateful

variable {r r' r'' : Resolver} {rows rows' : List (Signature RecordId Nat)}

/-- The signature with number `i`. -/
def signatureOf (i : Nat) : SignatureId := ⟨i.toUInt32⟩

/-- What is stored is the row, with placeholders for records and handles for numbers. -/
def RowAt (r : Resolver) (row : Signature RecordId Nat) (signature : StoredSignature) : Prop :=
  row.Related r.Named (fun i s => s = signatureOf i) signature

theorem RowAt.grows {row : Signature RecordId Nat} {signature : StoredSignature}
    (h : r.RowAt row signature) (hgrows : r.GrowsTo r') : r'.RowAt row signature :=
  { h with header := h.header.imp fun id t => hgrows.placeholders id t }

/-- After `r` the signatures of `rows` have been stored, and no others. -/
structure Adds (rows : List (Signature RecordId Nat)) (r r' : Resolver) : Prop where
  collecting : r'.Collecting
  grows : r.GrowsTo r'
  signatures : ∃ new, r'.graph.signatures.toList = r.graph.signatures.toList ++ new ∧
    List.Forall₂ r'.RowAt rows new

namespace Adds

theorem refl (hr : r.Collecting) : Adds [] r r :=
  ⟨hr, .refl r, [], by simp, .nil⟩

theorem trans (h : Adds rows r r') (h' : Adds rows' r' r'') : Adds (rows ++ rows') r r'' where
  collecting := h'.collecting
  grows := h.grows.trans h'.grows
  signatures := by
    obtain ⟨new, hnew, hrows⟩ := h.signatures
    obtain ⟨new', hnew', hrows'⟩ := h'.signatures
    refine ⟨new ++ new', by rw [hnew', hnew, List.append_assoc], List.rel_append ?_ hrows'⟩
    exact hrows.imp fun _ _ hrow => hrow.grows h'.grows

theorem count_eq (h : Adds rows r r') :
    r'.graph.signatureCount = r.graph.signatureCount + rows.length := by
  obtain ⟨new, hnew, hrows⟩ := h.signatures
  have hlen := congrArg List.length hnew
  rw [List.length_append, Array.length_toList, Array.length_toList, ← hrows.length_eq] at hlen
  exact hlen

end Adds

/-- The signatures are the same. -/
def SameSignatures (r r' : Resolver) : Prop := r'.graph.signatures = r.graph.signatures

instance : Std.Refl SameSignatures := ⟨fun _ => rfl⟩

instance : IsTrans Resolver SameSignatures := ⟨fun _ _ _ h h' => h'.trans h⟩

theorem sameSignatures_resolve (id : RecordId) : Leaves SameSignatures (resolve id) := by
  intro r
  rw [run_resolve]
  cases r.phase with
  | collecting =>
    dsimp only
    split <;> rfl
  | resolved =>
    dsimp only
    split <;> rfl

theorem adds_of_takes {ids : List RecordId} (h : Takes ids r r') (hsame : SameSignatures r r') :
    Adds [] r r' :=
  ⟨h.collecting, h.grows, [], by rw [hsame, List.append_nil], .nil⟩

section Numbers

variable {γ δ : Type}

/-- `run` stores signatures and nothing else has them: `rows` from their first number on, of which `post`
tells what is returned. -/
def Numbers (rows : Nat → List (Signature RecordId Nat)) (run : Resolving γ) (post : Nat → γ → Prop) : Prop :=
  ∀ r : Resolver, r.Collecting → ∃ value r', run.run.run r = (.ok value, r') ∧
    Adds (rows r.graph.signatureCount) r r' ∧ post r.graph.signatureCount value

theorem Numbers.map {rows : Nat → List (Signature RecordId Nat)} {run : Resolving γ} {post : Nat → γ → Prop}
    (h : Numbers rows run post) (f : γ → δ) {post' : Nat → δ → Prop}
    (hpost : ∀ start value, post start value → post' start (f value)) : Numbers rows (f <$> run) post' := by
  intro r hr
  obtain ⟨value, r', hrun, hadds, hvalue⟩ := h r hr
  refine ⟨f value, r', ?_, hadds, hpost _ _ hvalue⟩
  rw [run_map, hrun]

theorem numbers_resolve (id : RecordId) : Numbers (fun _ => []) (resolve id) fun _ _ => True := by
  intro r hr
  obtain ⟨t, r', hrun, htakes, -⟩ := collects_resolve id r hr
  have hsame := sameSignatures_resolve id r
  rw [hrun] at hsame
  exact ⟨t, r', hrun, adds_of_takes htakes hsame, trivial⟩

end Numbers

mutual

/-- The signatures of a tree get the numbers that follow, its root the last. -/
theorem numbers_tree : ∀ tree : SignatureTree RecordId,
    Numbers (tree.rows ·) (tree.traverse (fun _ => resolve) addSignature)
      fun start s => s = signatureOf (tree.root start)
  | .node header target unions => by
    intro r hr
    obtain ⟨target', r₁, hrun₁, hadds₁, htarget⟩ := numbers_target target r hr
    obtain ⟨unions', r₂, hrun₂, hadds₂, hunions⟩ := numbers_trees unions r₁ hadds₁.collecting
    obtain ⟨header', r₃, hrun₃, htakes₃, hheader⟩ := collects_header header r₂ hadds₂.collecting
    have hr₃ := htakes₃.collecting
    have hsame : SameSignatures r₂ r₃ := by
      have hleaves := Leaves.exchange (P := SameSignatures)
        (header.exchanges (fun _ => resolve) (Empty.elim : Empty → Resolving Empty)) sameSignatures_resolve
        nofun r₂
      rwa [hrun₃] at hleaves
    have hcount₁ := hadds₁.count_eq
    have hcount₂ := hadds₂.count_eq
    rw [SignatureTree.length_rowsOfTarget] at hcount₁
    rw [SignatureTree.length_rowsOfList] at hcount₂
    rw [hcount₁] at hunions hadds₂ hcount₂
    have hrefs := held_of_named (hheader r₃ (.refl r₃)).typeRefs
    have hlast : Adds [⟨header, target.map (SignatureTree.root r.graph.signatureCount),
        SignatureTree.roots (r.graph.signatureCount + SignatureTree.countOfTarget target) unions⟩] r₂
        (r₃.withSignature ⟨header', target', unions'⟩) := by
      refine ⟨hr₃.withSignature hrefs, htakes₃.grows.trans growsTo_withSignature,
        [⟨header', target', unions'⟩], ?_, .cons ⟨?_, ?_, ?_⟩ .nil⟩
      · rw [← hsame]
        exact Array.toList_push ..
      · exact hheader _ growsTo_withSignature
      · cases target with
        | none => exact htarget ▸ .none
        | some tree => exact htarget ▸ .some rfl
      · rw [hunions, List.forall₂_map_right_iff]
        exact List.forall₂_same.2 fun _ _ => rfl
    refine ⟨(r₃.graph.allocSignature ⟨header', target', unions'⟩).1,
      r₃.withSignature ⟨header', target', unions'⟩, ?_, hadds₁.trans (hadds₂.trans hlast), ?_⟩
    · simp only [SignatureTree.traverse, run_bind, hrun₁, hrun₂, hrun₃, run_addSignature_of_collecting hr₃]
    · have hcount₃ : r₃.graph.signatureCount = r₂.graph.signatureCount := congrArg Array.size hsame
      change _ = signatureOf (r.graph.signatureCount + (_ + _))
      rw [← Nat.add_assoc, ← hcount₂, ← hcount₃]
      rfl

theorem numbers_target : ∀ target : Option (SignatureTree RecordId),
    Numbers (SignatureTree.rowsOfTarget · target)
      (SignatureTree.traverseTarget (fun _ => resolve) addSignature target)
      fun start s => s = (target.map (SignatureTree.root start)).map signatureOf
  | none => fun r hr => ⟨none, r, rfl, .refl hr, rfl⟩
  | some tree => (numbers_tree tree).map some fun _ _ h => congrArg some h

theorem numbers_trees : ∀ trees : List (SignatureTree RecordId),
    Numbers (SignatureTree.rowsOfList · trees)
      (SignatureTree.traverseList (fun _ => resolve) addSignature trees)
      fun start ss => ss = (SignatureTree.roots start trees).map signatureOf
  | [] => fun r hr => ⟨[], r, rfl, .refl hr, rfl⟩
  | tree :: trees => by
    intro r hr
    obtain ⟨first, r₁, hrun₁, hadds₁, hfirst⟩ := numbers_tree tree r hr
    obtain ⟨rest, r₂, hrun₂, hadds₂, hrest⟩ := numbers_trees trees r₁ hadds₁.collecting
    have hcount := hadds₁.count_eq
    rw [SignatureTree.length_rows] at hcount
    rw [hcount] at hadds₂ hrest
    refine ⟨first :: rest, r₂, ?_, hadds₁.trans hadds₂, ?_⟩
    · simp only [SignatureTree.traverseList, run_bind, hrun₁, hrun₂, run_pure]
    · simp only [hfirst, hrest, SignatureTree.roots, List.map_cons]

end

/-! ### Records -/

/-- The references of a record, one after the other. -/
theorem numbers_places (places : List (String × (RecordId ⊕ SignatureTree RecordId))) :
    Numbers (SignatureTree.rowsOfList · ((places.map Prod.snd).filterMap Sum.getRight?))
      (places.mapM (visit (fun _ => resolve) fun tree => tree.traverse (fun _ => resolve) addSignature))
      fun start results => results.map Sum.isLeft = places.map (·.2.isLeft) ∧
        results.filterMap Sum.getRight? =
          (SignatureTree.roots start ((places.map Prod.snd).filterMap Sum.getRight?)).map signatureOf := by
  induction places with
  | nil => exact fun r hr => ⟨[], r, rfl, .refl hr, rfl, rfl⟩
  | cons place places ih =>
    intro r hr
    obtain ⟨field, id | tree⟩ := place
    · obtain ⟨t, r₁, hrun₁, hadds₁, -⟩ := numbers_resolve id r hr
      obtain ⟨results, r₂, hrun₂, hadds₂, hsides, hresults⟩ := ih r₁ hadds₁.collecting
      have hcount := hadds₁.count_eq
      rw [List.length_nil, Nat.add_zero] at hcount
      rw [hcount] at hadds₂ hresults
      refine ⟨.inl t :: results, r₂, ?_, hadds₁.trans hadds₂, congrArg (true :: ·) hsides, hresults⟩
      simp only [List.mapM_cons, visit, run_bind, run_map, hrun₁, hrun₂, run_pure]
    · obtain ⟨s, r₁, hrun₁, hadds₁, hs⟩ := numbers_tree tree r hr
      obtain ⟨results, r₂, hrun₂, hadds₂, hsides, hresults⟩ := ih r₁ hadds₁.collecting
      have hcount := hadds₁.count_eq
      rw [SignatureTree.length_rows] at hcount
      rw [hcount] at hadds₂ hresults
      refine ⟨.inr s :: results, r₂, ?_, hadds₁.trans hadds₂, congrArg (false :: ·) hsides, ?_⟩
      · simp only [List.mapM_cons, visit, run_bind, run_map, hrun₁, hrun₂, run_pure]
      · exact congrArg₂ List.cons hs hresults

/-- The signatures of a record get the numbers that follow. -/
theorem numbers_record (record : NestedRecord RecordId) :
    Numbers (SignatureTree.rowsOfList · record.form.signatureRefs)
      (record.traverse (fun _ => resolve) (·.traverse (fun _ => resolve) addSignature))
      fun start record' => record'.form.signatureRefs =
        (SignatureTree.roots start record.form.signatureRefs).map signatureOf := by
  obtain ⟨places, hplaces, build, hrun, hbuild⟩ := record.exchanges (fun _ => resolve)
    (·.traverse (fun _ => resolve) addSignature)
  rw [hrun, record.signatureRefs_form, ← hplaces]
  refine (numbers_places places).map build fun start results ⟨hsides, hresults⟩ => ?_
  rw [Record.signatureRefs_form, (hbuild results hsides).1, hresults]

end Resolver

end TypeEnv
