import TypeEnv.Proofs.Resolver.Intake
import Mathlib.Logic.Relation

/-! A collection step by step. Whatever is run, the state only ever changes by a placeholder for a record
that had none, by a signature, or by the node of a record that was not registered, so what these steps
preserve holds of every state that a collection goes through. Here: every form in the arena is registered,
the arena has as many nodes as there are placeholders and registered records, and no view is derived. -/

namespace TypeEnv.Resolver

open Stateful

variable {r r' : Resolver}

inductive Step : Resolver → Resolver → Prop where
  | placeholder {r : Resolver} {id : RecordId} (h : r.placeholders[id]? = none) :
    Step r (r.withPlaceholder id)
  | signature {r : Resolver} (signature : StoredSignature) : Step r (r.withSignature signature)
  | registered {r : Resolver} {id : RecordId} (form : TypeForm TypeId SignatureId)
    (h : r.graph.registered? id = none) : Step r (r.withRegistered id (.form form))

/-- Any number of steps. -/
abbrev Steps := Relation.ReflTransGen Step

/-! ### What is left behind -/

section Leaves

variable {γ δ ι σ ρ : Type} {P : Resolver → Resolver → Prop}

/-- Whatever state `run` starts from, the state it leaves is related to it. -/
def Leaves (P : Resolver → Resolver → Prop) (run : Resolving γ) : Prop :=
  ∀ r : Resolver, P r (run.run.run r).2

namespace Leaves

theorem map {run : Resolving γ} (h : Leaves P run) (f : γ → δ) : Leaves P (f <$> run) := by
  intro r
  rw [run_map_snd]
  exact h r

theorem bind [IsTrans Resolver P] {run : Resolving γ} {next : γ → Resolving δ} (h : Leaves P run)
    (hnext : ∀ value, Leaves P (next value)) : Leaves P (run >>= next) := by
  intro r
  have hr := h r
  rw [run_bind]
  rcases hrun : run.run.run r with ⟨error | value, r'⟩
  · rw [hrun] at hr
    exact hr
  · rw [hrun] at hr
    exact trans_of P hr (hnext value r')

variable [Std.Refl P]

theorem pure (value : γ) : Leaves P (Pure.pure value) := fun r => refl_of P r

variable [IsTrans Resolver P]

theorem mapM {run : ι → Resolving γ} (h : ∀ i, Leaves P (run i)) (l : List ι) :
    Leaves P (l.mapM run) := by
  induction l with
  | nil => exact .pure []
  | cons i l ih =>
    rw [List.mapM_cons]
    exact (h i).bind fun _ => ih.bind fun _ => .pure _

/-- An exchange leaves behind what its single exchanges leave behind. -/
theorem exchange {onSignature : σ → Resolving ρ} {refs : List (RecordId ⊕ σ)} {run : Resolving γ}
    {refsOf : γ → List (TypeId ⊕ ρ)} {rel : (RecordId → TypeId → Prop) → (σ → ρ → Prop) → γ → Prop}
    (hrun : Exchanges (fun _ => resolve) onSignature refs run refsOf rel)
    (hresolve : ∀ id, Leaves P (resolve id)) (hsignature : ∀ s, Leaves P (onSignature s)) :
    Leaves P run := by
  obtain ⟨places, -, build, rfl, -⟩ := hrun
  refine (mapM ?_ places).map build
  rintro ⟨field, id | s⟩
  · exact (hresolve id).map _
  · exact (hsignature s).map _

end Leaves

theorem leaves_resolve (id : RecordId) : Leaves Steps (resolve id) := by
  intro r
  rw [run_resolve]
  cases r.phase with
  | collecting =>
    cases hid : r.placeholders[id]? with
    | some t => exact .refl
    | none => exact .single (.placeholder hid)
  | resolved =>
    dsimp only
    split <;> exact .refl

theorem leaves_addSignature (signature : StoredSignature) : Leaves Steps (addSignature signature) := by
  intro r
  rw [run_addSignature]
  split
  · exact .refl
  · exact .single (.signature signature)

theorem leaves_register (id : RecordId) (form : TypeForm TypeId SignatureId) :
    Leaves Steps (register id (.form form)) := by
  intro r
  rw [run_register]
  split
  · exact .refl
  · split
    · exact .refl
    · next hid => exact .single (.registered form (not_isRegistered_iff.1 hid))

theorem leaves_header (header : SignatureHeader RecordId) :
    Leaves Steps (header.traverseInOrder fun _ => resolve) :=
  .exchange (header.exchanges (fun _ => resolve) (Empty.elim : Empty → Resolving Empty)) leaves_resolve nofun

mutual

theorem leaves_tree : ∀ tree : SignatureTree RecordId,
    Leaves Steps (tree.traverse (fun _ => resolve) addSignature)
  | .node header target unions =>
    (leaves_target target).bind fun _ => (leaves_trees unions).bind fun _ =>
      (leaves_header header).bind fun _ => leaves_addSignature _

theorem leaves_target : ∀ target : Option (SignatureTree RecordId),
    Leaves Steps (SignatureTree.traverseTarget (fun _ => resolve) addSignature target)
  | none => .pure none
  | some tree => (leaves_tree tree).map some

theorem leaves_trees : ∀ trees : List (SignatureTree RecordId),
    Leaves Steps (SignatureTree.traverseList (fun _ => resolve) addSignature trees)
  | [] => .pure []
  | tree :: trees => (leaves_tree tree).bind fun _ => (leaves_trees trees).bind fun _ => .pure _

end

end Leaves

/-! ### What steps preserve -/

/-- Every form in the arena is the node of some record. -/
def FormsRegistered (r : Resolver) : Prop :=
  ∀ (i : Nat) form, r.graph.nodes[i]? = some (.form form) →
    ∃ id, r.graph.registered? id = some ⟨i.toUInt32⟩

theorem Step.formsRegistered (h : Step r r') (hr : r.FormsRegistered) : r'.FormsRegistered := by
  cases h with
  | placeholder hid =>
    intro i form hi
    simp only [withPlaceholder, TypeGraph.alloc, Array.getElem?_push] at hi
    split at hi
    · cases hi
    · exact hr i form hi
  | signature => exact hr
  | @registered id new hid =>
    intro i form hi
    simp only [withRegistered, TypeGraph.alloc, Array.getElem?_push] at hi
    split at hi
    · next heq =>
      refine ⟨id, ?_⟩
      rw [registered?_withRegistered, if_pos rfl, heq]
      rfl
    · obtain ⟨id', hid'⟩ := hr i form hi
      exact ⟨id', (growsTo_withRegistered _ hid).registered _ _ hid'⟩

theorem size_insert_of_new {κ α : Type} [Ord κ] [Std.TransOrd κ] (m : Std.TreeMap κ α) {key : κ} (a : α)
    (hnew : m[key]? = none) : (m.insert key a).size = m.size + 1 := by
  rw [Std.TreeMap.size_insert, if_neg]
  rw [Std.TreeMap.contains_eq_isSome_getElem?, hnew]
  nofun

/-- Every node is the placeholder of a record or the node of one. -/
def SizeTold (r : Resolver) : Prop :=
  r.graph.size = r.placeholders.size + r.graph.registry.size

theorem Step.sizeTold (h : Step r r') (hr : r.SizeTold) : r'.SizeTold := by
  rw [SizeTold] at hr ⊢
  cases h with
  | placeholder hid =>
    simp only [withPlaceholder, TypeGraph.alloc, TypeGraph.size, Array.size_push,
      size_insert_of_new _ _ hid] at hr ⊢
    omega
  | signature => exact hr
  | registered form hid =>
    simp only [withRegistered, TypeGraph.alloc, TypeGraph.size, Array.size_push,
      size_insert_of_new _ _ hid] at hr ⊢
    omega

/-- What every step preserves holds after any number of them. -/
theorem Steps.preserves {P : Resolver → Prop} (hstep : ∀ r r', Step r r' → P r → P r') (h : Steps r r')
    (hr : P r) : P r' := by
  induction h with
  | refl => exact hr
  | tail _ hlast ih => exact hstep _ _ hlast ih

theorem formsRegistered_of_steps (h : Steps {} r) : r.FormsRegistered :=
  h.preserves (fun _ _ => Step.formsRegistered) fun i form hi => by simp at hi

theorem sizeTold_of_steps (h : Steps {} r) : r.SizeTold :=
  h.preserves (fun _ _ => Step.sizeTold) rfl

/-- No view is derived. -/
theorem views_of_steps (h : Steps {} r) : r.graph.views = {} :=
  h.preserves (P := fun r => r.graph.views = {}) (fun _ _ hstep hr => by cases hstep <;> exact hr) rfl

end TypeEnv.Resolver
