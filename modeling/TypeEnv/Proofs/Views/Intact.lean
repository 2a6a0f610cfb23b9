import TypeEnv.Proofs.Graph.Search
import TypeEnv.Proofs.Views.RequestOrder

/-! Graphs in which every handle is that of a type: it is in the arena, and its node stands in for no
record. Views keep a graph so. Each node that is added has an origin, and what it refers to is told
by its origin: nodes that its source refers to, and views. -/

namespace TypeEnv

/-- The node that a view is asked for. -/
def ViewRequest.source : ViewRequest → TypeId
  | classInstance source | instanceInterface source | interfacePart source => source

namespace TypeGraph

open Stateful

variable (graph : TypeGraph)

/-- The handle is that of a type. -/
def IsType (t : TypeId) : Prop := ∃ form, graph.node? t = some (.form form)

/-- Every handle of a type that the graph holds, in whatever place, is that of a type. -/
structure Intact : Prop where
  nodes : ∀ node ∈ graph.nodes, ∀ t ∈ node.typeRefs, graph.IsType t
  signatures : ∀ signature ∈ graph.signatures, ∀ t ∈ signature.typeRefs, graph.IsType t
  registry : ∀ id t, graph.registered? id = some t → graph.IsType t
  views : ∀ request view, graph.noted? request = some view →
    graph.IsType request.source ∧ graph.IsType view

variable {graph} {start : TypeGraph}

/-! ### Types -/

theorem isType_iff {t : TypeId} : graph.IsType t ↔ graph.Contains t ∧ ¬ graph.StandsIn t := by
  constructor
  · rintro ⟨form, hform⟩
    refine ⟨contains_of_node? hform, ?_⟩
    rintro ⟨id, hid⟩
    cases hform.symm.trans hid
  · rintro ⟨hcontains, hstands⟩
    obtain ⟨form | id, hnode⟩ := exists_node_of_contains hcontains
    · exact ⟨form, hnode⟩
    · exact absurd ⟨id, hnode⟩ hstands

theorem isType_of_class? {t : TypeId} (h : (graph.class? t).isSome) : graph.IsType t := by
  obtain ⟨form, hform⟩ := Option.isSome_iff_exists.1 h
  exact ⟨_, class?_eq_some.1 hform⟩

namespace Intact

variable (h : graph.Intact)

include h

theorem isType {t u : TypeId} {node : Node} (hnode : graph.node? t = some node)
    (hu : u ∈ node.typeRefs) : graph.IsType u :=
  h.nodes node (Array.mem_of_getElem? hnode) u hu

theorem inRange : graph.InRange := by
  intro node hnode t ht
  have htype := h.nodes node hnode t ht
  exact (isType_iff.1 htype).1

theorem settled : graph.Settled where
  nodes node hnode t ht := (isType_iff.1 (h.nodes node hnode t ht)).2
  signatures signature hsignature t ht := (isType_iff.1 (h.signatures signature hsignature t ht)).2
  registry id t ht := (isType_iff.1 (h.registry id t ht)).2

end Intact

/-! ### What derived nodes refer to -/

/-- A node that was derived is a type. -/
theorem Viewed.isType_of_derived {opened : List TypeId} (h : graph.Viewed opened) {o : Origin}
    {t : TypeId} (ht : graph.Derived o t) : graph.IsType t := by
  cases o with
  | classInstance source => exact ⟨_, (h.instances source t (derived_classInstance.1 ht)).2⟩
  | interfacePart source =>
    obtain ⟨shape, -, -, -, hnode⟩ := h.parts source t (derived_interfacePart.1 ht)
    exact ⟨_, hnode⟩
  | instanceInterface d =>
    obtain ⟨form, shape, -, hnode⟩ := h.view (derived_instanceInterface.1 ht)
    exact ⟨_, hnode⟩
  | baseReference d position =>
    obtain ⟨_, _, _, _, _, -, -, -, -, hnode⟩ := h.reference_of_derived ht
    exact ⟨_, hnode⟩

namespace Derives

variable (h : start.Derives graph [])

include h

theorem isType {t : TypeId} (ht : start.IsType t) : graph.IsType t := by
  obtain ⟨form, hform⟩ := ht
  refine ⟨form, ?_⟩
  rw [h.node t (contains_of_node? hform), hform]

variable (hstart : start.Intact)

include hstart

/-- What a node of the start refers to is a type. -/
theorem isType_of_start {t u : TypeId} {node : Node} (hnode : start.node? t = some node)
    (hu : u ∈ node.typeRefs) : graph.IsType u :=
  h.isType (hstart.isType hnode hu)

theorem isType_of_class {d u : TypeId} {form : ClassForm TypeId SignatureId}
    (hform : graph.class? d = some form) (hu : u ∈ (Node.form (.classDeclaration form)).typeRefs) :
    graph.IsType u := by
  rw [h.class?] at hform
  exact h.isType_of_start hstart (class?_eq_some.1 hform) hu

theorem isType_of_baseType {d base : TypeId} {form : ClassForm TypeId SignatureId}
    (hform : graph.class? d = some form) (hbase : base ∈ form.shape.baseTypes) :
    graph.IsType base := by
  refine h.isType_of_class hstart hform ?_
  rw [mem_typeRefs_class, mem_typeRefs_interface]
  exact .inl (.inr (.inl hbase))

omit hstart in
theorem isType_of_side {base b : TypeId} (hbase : graph.IsType base)
    (hside : graph.InstanceSide base b) : graph.IsType b := by
  cases hside with
  | view _ hv => exact h.viewed.isType_of_derived (.instanceInterface hv)
  | reference _ _ _ hb => exact ⟨_, hb⟩
  | same => exact hbase

theorem isType_of_interface {d u : TypeId} {form : ClassForm TypeId SignatureId}
    {shape : Shape TypeId SignatureId} (hform : graph.class? d = some form)
    (hfilled : graph.IsInterfaceOf form shape)
    (hu : u ∈ (Node.form (.interface shape)).typeRefs) : graph.IsType u := by
  by_cases hbase : u ∈ shape.baseTypes
  · obtain ⟨base, hmem, hside⟩ := exists_of_forall₂ hfilled.baseTypes hbase
    exact h.isType_of_side (h.isType_of_baseType hstart hform hmem) hside
  · refine h.isType_of_class hstart hform (mem_typeRefs_of_openInterface ?_)
    rw [hfilled.eq, mem_typeRefs_interface] at hu
    rw [mem_typeRefs_interface]
    tauto

/-- The references of a base type were there at the start, but for one that was made, to a view. -/
theorem isType_of_reference {d t u : TypeId} {position : Nat} {node : Node}
    (ht : graph.Derived (.baseReference d position) t) (hnode : graph.node? t = some node)
    (hu : u ∈ node.typeRefs) : graph.IsType u := by
  obtain ⟨form, base, target, typeArguments, v, hform, hbase, href, hv, hnode'⟩ :=
    h.viewed.reference_of_derived ht
  obtain rfl := Option.some.inj (hnode'.symm.trans hnode)
  rw [mem_typeRefs_reference] at hu
  rcases hu with rfl | hu
  · exact h.viewed.isType_of_derived (.instanceInterface hv)
  · rw [h.class?] at hform
    have hcontains : start.Contains base :=
      hstart.inRange.contains_baseType hform (List.mem_of_getElem? hbase)
    rw [h.node base hcontains] at href
    exact h.isType_of_start hstart href (mem_typeRefs_reference.2 (.inr hu))

theorem isType_of_derived {o : Origin} {t u : TypeId} {node : Node} (ht : graph.Derived o t)
    (hnode : graph.node? t = some node) (hu : u ∈ node.typeRefs) : graph.IsType u := by
  cases o with
  | classInstance source =>
    obtain ⟨hclass, hnode'⟩ := h.viewed.instances source t (derived_classInstance.1 ht)
    obtain rfl := Option.some.inj (hnode'.symm.trans hnode)
    obtain rfl : u = source := by
      simpa [Node.typeRefs, TypeForm.typeRefs, TypeForm.references] using hu
    exact isType_of_class? hclass
  | interfacePart source =>
    obtain ⟨shape, target, typeArguments, hsource, hnode'⟩ :=
      h.viewed.parts source t (derived_interfacePart.1 ht)
    obtain rfl := Option.some.inj (hnode'.symm.trans hnode)
    have hgeneric := h.generic_iff.1 hsource
    exact h.isType_of_start hstart hgeneric (mem_typeRefs_of_part hu)
  | instanceInterface d =>
    obtain ⟨form, shape, hform, hnode', hfilled⟩ :=
      h.viewed.filled d t (derived_instanceInterface.1 ht) List.not_mem_nil
    obtain rfl := Option.some.inj (hnode'.symm.trans hnode)
    exact h.isType_of_interface hstart hform hfilled hu
  | baseReference d position => exact h.isType_of_reference hstart ht hnode hu

/-! ### Intact graphs stay intact -/

theorem isType_of_mem_nodes (hsize : graph.size ≤ 0x100000000) {node : Node}
    (hnode : node ∈ graph.nodes) {u : TypeId} (hu : u ∈ node.typeRefs) : graph.IsType u := by
  obtain ⟨i, hi, hget⟩ := Array.mem_iff_getElem.1 hnode
  have hword : (i.toUInt32).toNat = i := toNat_toUInt32 (Nat.lt_of_lt_of_le hi hsize)
  have hat : graph.node? ⟨i.toUInt32⟩ = some node := by
    rw [node?, hword, Array.getElem?_eq_getElem hi, hget]
  by_cases hold : i < start.size
  · have hcontains : start.Contains ⟨i.toUInt32⟩ := by
      rw [Contains, hword]
      exact hold
    rw [h.node _ hcontains] at hat
    exact h.isType_of_start hstart hat hu
  · obtain ⟨o, ho⟩ := h.accounted i (Nat.not_lt.1 hold) hi
    exact h.isType_of_derived hstart ho hat hu

omit hstart in
theorem isType_of_noted {request : ViewRequest} {view : TypeId}
    (hview : graph.noted? request = some view) :
    graph.IsType request.source ∧ graph.IsType view := by
  refine ⟨h.isType ?_, h.viewed.isType_of_derived (derived_origin.2 hview)⟩
  have hleads := h.leadsTo_origin hview
  cases request with
  | classInstance source =>
    obtain ⟨hclass⟩ := hleads
    exact isType_of_class? hclass
  | instanceInterface source =>
    obtain _ | _ | ⟨hclass, -⟩ := hleads
    exact isType_of_class? hclass
  | interfacePart source =>
    obtain _ | hnode := hleads
    exact ⟨_, hnode⟩

/-- Whatever views are made, an intact graph stays intact. -/
theorem intact (hsize : graph.size ≤ 0x100000000) : graph.Intact where
  nodes _ hnode _ ht := h.isType_of_mem_nodes hstart hsize hnode ht
  signatures signature hsignature t ht := by
    rw [h.signatures] at hsignature
    exact h.isType (hstart.signatures signature hsignature t ht)
  registry id t ht := by
    rw [registered?, h.registry] at ht
    exact h.isType (hstart.registry id t ht)
  views _ _ hview := h.isType_of_noted hview

end Derives

/-! ### Runs of requests -/

/-- The requests made so far have added no more nodes than all of them add. -/
theorem size_performAll_le {made requests : List ViewRequest} (hmade : made <+: requests)
    (graph : TypeGraph) : ((performAll made).run.run graph).2.size ≤
      ((performAll requests).run.run graph).2.size := by
  obtain ⟨rest, rfl⟩ := hmade
  have hparts : performAll (made ++ rest) = (do
      let answers ← performAll made
      let others ← performAll rest
      pure (answers ++ others) : Deriving (List (Option TypeId))) := List.mapM_append
  rw [hparts]
  exact Enlarges.le_bind _ (fun _ => .bind (.mapM .perform rest) fun _ => .pure _) graph

/-- On an intact graph without views, all requests are answered, and after each of them the graph is
intact. -/
theorem Intact.performAll (hstart : start.Intact) (hviews : start.views = {})
    {requests : List ViewRequest}
    (hsize : ((TypeGraph.performAll requests).run.run start).2.size ≤ 0x100000000)
    {made : List ViewRequest} (hmade : made <+: requests) : ∃ answers graph,
      (TypeGraph.performAll made).run.run start = (.ok answers, graph) ∧ graph.Intact := by
  have hsize' := Nat.le_trans (size_performAll_le hmade start) hsize
  have hviewed : start.Viewed [] := viewed_of_empty hstart.inRange hviews
  obtain ⟨graph, hrun, hderives, -⟩ :=
    run_performAll hstart.inRange made start (.refl hviewed) hsize'
  rw [hrun] at hsize'
  exact ⟨_, graph, hrun, hderives.intact hstart hsize'⟩

end TypeGraph

end TypeEnv
