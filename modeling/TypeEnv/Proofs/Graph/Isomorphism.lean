import TypeEnv.Proofs.Form.Change
import TypeEnv.Proofs.Graph.Handles
import Mathlib.Data.Set.Function

/-! Graphs that are the same but for the numbers of their handles. One is carried to the other by a
bijection of its handles: each node becomes the node at the new handle, its references exchanged and
nothing else. -/

namespace TypeEnv

variable {α β σ ρ : Type}

/-- The same node but for its references; the records that placeholders are for are renumbered. -/
inductive Node.Related (renumber : RecordId → RecordId) (A : TypeId → TypeId → Prop)
    (S : SignatureId → SignatureId → Prop) : Node → Node → Prop where
  | form {x y} : x.Related A S y → Related renumber A S (.form x) (.form y)
  | placeholder (record) : Related renumber A S (.placeholder record) (.placeholder (renumber record))

theorem Node.Related.imp_mem {renumber : RecordId → RecordId} {A A' : TypeId → TypeId → Prop}
    {S S' : SignatureId → SignatureId → Prop} {node node' : Node} (h : node.Related renumber A S node')
    (hA : ∀ a ∈ node.typeRefs, ∀ b, A a b → A' a b) (hS : ∀ s ∈ node.signatureRefs, ∀ r, S s r → S' s r) :
    node.Related renumber A' S' node' := by
  cases h with
  | form h => exact .form (h.imp_mem hA hS)
  | placeholder record => exact .placeholder record

theorem Node.related_self (node : Node) : node.Related id (· = ·) (· = ·) node := by
  cases node with
  | form x => exact .form x.related_self
  | placeholder record => exact .placeholder record

namespace TypeGraph

/-- Each node of `graph` is carried onto its counterpart in `graph'`, its references exchanged. -/
structure CarriesNodes (renumber : RecordId → RecordId) (f : TypeId → TypeId)
    (h : SignatureId → SignatureId) (graph graph' : TypeGraph) : Prop where
  bijOn : Set.BijOn f {t | graph.Contains t} {t | graph'.Contains t}
  node : ∀ t node, graph.node? t = some node → ∃ node', graph'.node? (f t) = some node' ∧
    node.Related renumber (f · = ·) (h · = ·) node'

variable {renumber : RecordId → RecordId} {f : TypeId → TypeId} {h : SignatureId → SignatureId}
  {graph graph' : TypeGraph}

theorem CarriesNodes.size_eq (hcarries : CarriesNodes renumber f h graph graph')
    (hsize : graph.size ≤ 0x100000000) (hsize' : graph'.size ≤ 0x100000000) : graph.size = graph'.size := by
  rw [← ncard_contains hsize, ← ncard_contains hsize']
  exact hcarries.bijOn.ncard_eq

/-- A relation that pairs the elements of two sets off is a bijection of them. -/
theorem exists_bijOn [Inhabited β] {R : α → β → Prop} {s : Set α} {t : Set β}
    (htotal : ∀ a ∈ s, ∃ b ∈ t, R a b) (honto : ∀ b ∈ t, ∃ a ∈ s, R a b)
    (hright : ∀ a b b', R a b → R a b' → b = b') (hleft : ∀ a a' b, R a b → R a' b → a = a') :
    ∃ f : α → β, Set.BijOn f s t ∧ ∀ a ∈ s, R a (f a) := by
  classical
  choose! f hf using htotal
  refine ⟨f, ⟨fun a ha => (hf a ha).1, ?_, ?_⟩, fun a ha => (hf a ha).2⟩
  · exact fun a ha a' ha' heq => hleft a a' (f a) (hf a ha).2 (heq ▸ (hf a' ha').2)
  · intro b hb
    obtain ⟨a, ha, hab⟩ := honto b hb
    exact ⟨a, ha, hright a _ _ (hf a ha).2 hab⟩

/-- Two graphs whose handles are paired off so that paired nodes hold paired references, and the same
signatures in the sense of `h`. -/
theorem exists_carriesNodes {R : TypeId → TypeId → Prop}
    (htotal : ∀ t, graph.Contains t → ∃ u, graph'.Contains u ∧ R t u)
    (honto : ∀ u, graph'.Contains u → ∃ t, graph.Contains t ∧ R t u)
    (hright : ∀ t u u', R t u → R t u' → u = u') (hleft : ∀ t t' u, R t u → R t' u → t = t')
    (hrange : graph.InRange)
    (hnode : ∀ t u node, R t u → graph.node? t = some node → ∃ node', graph'.node? u = some node' ∧
      node.Related renumber R (h · = ·) node') :
    ∃ f, CarriesNodes renumber f h graph graph' ∧ ∀ t, graph.Contains t → ∀ u, R t u ↔ f t = u := by
  obtain ⟨f, hbij, hf⟩ := exists_bijOn htotal honto hright hleft
  have hiff : ∀ t, graph.Contains t → ∀ u, R t u ↔ f t = u :=
    fun t ht u => ⟨hright t _ u (hf t ht), fun heq => heq ▸ hf t ht⟩
  refine ⟨f, ⟨hbij, fun t node ht => ?_⟩, hiff⟩
  obtain ⟨node', hnode', hrelated⟩ := hnode t (f t) node (hf t (contains_of_node? ht)) ht
  exact ⟨node', hnode', hrelated.imp_mem (fun u hu v huv => (hiff u (hrange.contains ht hu) v).1 huv)
    fun _ _ _ => id⟩

end TypeGraph

end TypeEnv
