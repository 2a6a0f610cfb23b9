import TypeEnv.Graph.Views
import TypeEnv.Proofs.Graph.Handles
import Mathlib.Logic.Relation

/-! Which classes a class inherits from, told from the graph alone. -/

namespace TypeEnv.TypeGraph

variable (graph : TypeGraph)

def class? (t : TypeId) : Option (ClassForm TypeId SignatureId) :=
  (graph.node? t).bind Node.class?

/-- The view noted as the interface of a class's instances. -/
def interfaceOf? (t : TypeId) : Option TypeId := graph.views.instanceInterfaces[t]?

/-- The class that a base type names, directly or through a reference. -/
def classBehind? (base : TypeId) : Option TypeId :=
  match graph.node? base with
  | some (.form (.classDeclaration _)) => some base
  | some (.form (.reference target _)) => (graph.class? target).map fun _ => target
  | _ => none

/-- `d` names `e` among its base types. -/
def Extends (d e : TypeId) : Prop :=
  ∃ form, graph.class? d = some form ∧ ∃ base ∈ form.shape.baseTypes, graph.classBehind? base = some e

/-- `d` is `c` or a class that `c` inherits from, however far up. -/
def Inherits : TypeId → TypeId → Prop := Relation.ReflTransGen graph.Extends

/-- The base type is a reference to a class. -/
def ReferencesClass (base : TypeId) : Prop :=
  ∃ target typeArguments, graph.node? base = some (.form (.reference target typeArguments)) ∧
    (graph.class? target).isSome

/-- The base type is a node, and if it is a reference, so is its target. -/
def Reaches (base : TypeId) : Prop :=
  graph.Contains base ∧ ∀ target typeArguments,
    graph.node? base = some (.form (.reference target typeArguments)) → graph.Contains target

variable {graph}

theorem class?_eq_some {t : TypeId} {form : ClassForm TypeId SignatureId} :
    graph.class? t = some form ↔ graph.node? t = some (.form (.classDeclaration form)) := by
  rw [class?, Option.bind_eq_some_iff]
  constructor
  · rintro ⟨form' | id, hnode, hclass⟩
    · cases form' <;> cases hclass
      exact hnode
    · cases hclass
  · exact fun h => ⟨_, h, rfl⟩

theorem contains_of_class? {t : TypeId} {form : ClassForm TypeId SignatureId}
    (h : graph.class? t = some form) : graph.Contains t :=
  contains_of_node? (class?_eq_some.1 h)

theorem class?_eq_none_of_not_contains {t : TypeId} (h : ¬ graph.Contains t) :
    graph.class? t = none := by
  rw [class?, node?_eq_none.2 h]
  rfl

theorem class_of_classBehind? {base t : TypeId} (h : graph.classBehind? base = some t) :
    (graph.class? t).isSome := by
  rw [classBehind?] at h
  split at h
  · next form hform =>
    cases h
    rw [class?_eq_some.2 hform]
    rfl
  · obtain ⟨form, hform, rfl⟩ := Option.map_eq_some_iff.1 h
    rw [hform]
    rfl
  · cases h

theorem InRange.contains_baseType (h : graph.InRange) {t base : TypeId} {form : ClassForm TypeId SignatureId}
    (hclass : graph.class? t = some form) (hbase : base ∈ form.shape.baseTypes) :
    graph.Contains base := by
  refine h.contains (class?_eq_some.1 hclass) ?_
  rw [mem_typeRefs_class, mem_typeRefs_interface]
  exact .inl (.inr (.inl hbase))

theorem InRange.reaches (h : graph.InRange) {base : TypeId} (hbase : graph.Contains base) : graph.Reaches base :=
  ⟨hbase, fun _ _ hnode => h.contains_target hnode⟩

theorem InRange.reaches_baseType (h : graph.InRange) {t base : TypeId} {form : ClassForm TypeId SignatureId}
    (hclass : graph.class? t = some form) (hbase : base ∈ form.shape.baseTypes) : graph.Reaches base :=
  h.reaches (h.contains_baseType hclass hbase)

end TypeEnv.TypeGraph
