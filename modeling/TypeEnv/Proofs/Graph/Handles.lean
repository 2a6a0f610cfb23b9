import TypeEnv.Graph.Basic
import TypeEnv.Proofs.Ident
import Mathlib.Data.Set.Card
import Mathlib.Order.Interval.Set.Nat

/-! Handles that are in the arena. -/

namespace TypeEnv.TypeGraph

variable (graph : TypeGraph)

/-- The handle is that of a node. -/
def Contains (t : TypeId) : Prop := t.val.toNat < graph.size

/-- The handle is that of a signature. -/
def ContainsSignature (s : SignatureId) : Prop := s.val.toNat < graph.signatureCount

/-- Every type that a node refers to is a node. -/
def InRange : Prop := ∀ node ∈ graph.nodes, ∀ t ∈ node.typeRefs, graph.Contains t

variable {graph}

theorem contains_iff {t : TypeId} : graph.Contains t ↔ (graph.node? t).isSome := by
  simp [Contains, node?, size]

theorem contains_of_node? {t : TypeId} {node : Node} (h : graph.node? t = some node) :
    graph.Contains t :=
  contains_iff.2 (by simp [h])

theorem exists_node_of_contains {t : TypeId} (h : graph.Contains t) :
    ∃ node, graph.node? t = some node :=
  Option.isSome_iff_exists.1 (contains_iff.1 h)

theorem node?_eq_none {t : TypeId} : graph.node? t = none ↔ ¬ graph.Contains t := by
  rw [contains_iff, Option.not_isSome_iff_eq_none]

theorem mem_typeRefs_interface {shape : Shape TypeId SignatureId} {t : TypeId} :
    t ∈ (Node.form (.interface shape)).typeRefs ↔ t ∈ shape.typeParameters ∨ t ∈ shape.baseTypes ∨
      t ∈ shape.declaredProperties.values ∨ t ∈ shape.stringIndex ∨ t ∈ shape.numberIndex := by
  simp [Node.typeRefs, TypeForm.typeRefs, TypeForm.references, Shape.references]

theorem mem_typeRefs_class {form : ClassForm TypeId SignatureId} {t : TypeId} :
    t ∈ (Node.form (.classDeclaration form)).typeRefs ↔ t ∈ (Node.form (.interface form.shape)).typeRefs ∨
      t ∈ form.instanceProperties.values ∨ t ∈ form.staticProperties.values ∨ t ∈ form.target ∨
      t ∈ form.typeArguments := by
  simp [Node.typeRefs, TypeForm.typeRefs, TypeForm.references, ClassForm.references]

theorem mem_typeRefs_reference {target t : TypeId} {typeArguments : List TypeId} :
    t ∈ (Node.form (.reference target typeArguments)).typeRefs ↔ t = target ∨ t ∈ typeArguments := by
  simp [Node.typeRefs, TypeForm.typeRefs, TypeForm.references]

namespace InRange

variable (h : graph.InRange)

include h

theorem contains {t u : TypeId} {node : Node} (hnode : graph.node? t = some node)
    (hu : u ∈ node.typeRefs) : graph.Contains u :=
  h node (Array.mem_of_getElem? hnode) u hu

theorem contains_target {t target : TypeId} {typeArguments : List TypeId}
    (hnode : graph.node? t = some (.form (.reference target typeArguments))) :
    graph.Contains target :=
  h.contains hnode (mem_typeRefs_reference.2 (.inl rfl))

end InRange

/-- The handles in an arena of at most `0x100000000` nodes are as many as its nodes. -/
theorem ncard_contains (hsize : graph.size ≤ 0x100000000) : {t | graph.Contains t}.ncard = graph.size := by
  rw [← Set.ncard_Iio_nat graph.size]
  have hmaps : Set.MapsTo (fun t : TypeId => t.val.toNat) {t | graph.Contains t} (Set.Iio graph.size) :=
    fun _ ht => ht
  refine Set.BijOn.ncard_eq ⟨hmaps, ?_, ?_⟩
  · exact fun t _ u _ heq => TypeId.eq_of_toNat_eq heq
  · intro k hk
    have hword := toNat_toUInt32 (Nat.lt_of_lt_of_le hk hsize)
    exact ⟨⟨k.toUInt32⟩, by simpa [Contains, hword] using hk, hword⟩

end TypeEnv.TypeGraph
