import TypeEnv.Proofs.Views.Requests

/-! The interface that instances of a class have. Whatever was allocated and whatever views were made
before, a request for the interface of a class ends, and then every class that it inherits from has
its interface, filled in: inheritance may go in circles, meet again, or run into classes that have
their interface already. -/

namespace TypeEnv.TypeGraph

/-- `graph` was reached from one without views: nodes and signatures were allocated, never with a type
out of range, and views were requested. `given` are the nodes that were not made for a view. -/
inductive Reached : Set TypeId → TypeGraph → Prop where
  | start {graph} : graph.InRange → graph.views = {} → Reached {t | graph.Contains t} graph
  | alloc {given graph node} : Reached given graph →
    (∀ t ∈ node.typeRefs, (graph.alloc node).2.Contains t) →
    Reached (insert (graph.alloc node).1 given) (graph.alloc node).2
  | allocSignature {given graph signature} : Reached given graph →
    Reached given (graph.allocSignature signature).2
  | request {given graph} (request : ViewRequest) : Reached given graph →
    Reached given ((perform request).run.run graph).2

/-- In `graph'`, reached from `graph`, `c` and every class that it inherits from has its interface. -/
structure HasInterfaces (given : Set TypeId) (graph : TypeGraph) (c view : TypeId)
    (graph' : TypeGraph) : Prop where
  noted : graph'.interfaceOf? c = some view
  inherited : ∀ d, graph.Inherits c d → ∃ form v shape, graph.class? d = some form ∧
    graph'.interfaceOf? d = some v ∧ graph'.node? v = some (.form (.interface shape)) ∧
    graph'.IsInterfaceOf form shape
  /-- No other class gains an interface, and none loses one. -/
  others : ∀ d, ¬ graph.Inherits c d → graph'.interfaceOf? d = graph.interfaceOf? d
  kept : ∀ d v, graph.interfaceOf? d = some v → graph'.interfaceOf? d = some v
  /-- A view, and a reference among the base types of a view, is a node of its own. -/
  own : ∀ o t, graph'.Derived o t → t ∉ given
  distinct : ∀ o o' t, graph'.Derived o t → graph'.Derived o' t → o = o'
  fresh : ∀ o t, graph'.Derived o t → graph.Derived o t ∨ ¬ graph.Contains t
  /-- No node that there was is touched. -/
  node : ∀ t, graph.Contains t → graph'.node? t = graph.node? t

variable {given : Set TypeId} {graph : TypeGraph}

/-! ### Views of reached graphs -/

theorem not_derived_of_empty (hviews : graph.views = {}) (o : Origin) (t : TypeId) : ¬ graph.Derived o t := by
  have hnone : ∀ d v, graph.interfaceOf? d ≠ some v := by simp [interfaceOf?, hviews]
  rintro (hv | hv | hv | ⟨-, hv, -⟩)
  · simp [hviews] at hv
  · simp [hviews] at hv
  · exact hnone _ _ hv
  · exact hnone _ _ hv

theorem viewed_of_empty (hrange : graph.InRange) (hviews : graph.views = {}) : graph.Viewed [] where
  in_range := hrange
  instances _ _ hv := (not_derived_of_empty hviews _ _ (.classInstance hv)).elim
  parts _ _ hv := (not_derived_of_empty hviews _ _ (.interfacePart hv)).elim
  filled _ _ hv := (not_derived_of_empty hviews _ _ (.instanceInterface hv)).elim
  opened _ _ hv := (not_derived_of_empty hviews _ _ (.instanceInterface hv)).elim
  distinct o _ t ho := (not_derived_of_empty hviews o t ho).elim

theorem addsNodes_allocSignature (graph : TypeGraph) (signature : StoredSignature) :
    graph.AddsNodes (graph.allocSignature signature).2 :=
  ⟨Nat.le_refl _, fun _ _ => rfl, rfl⟩

theorem inRange_alloc {node : Node} (hrange : graph.InRange)
    (hnode : ∀ t ∈ node.typeRefs, (graph.alloc node).2.Contains t) : (graph.alloc node).2.InRange := by
  intro node' hmem t ht
  rcases Array.mem_push.1 hmem with hmem | rfl
  · exact (addsNodes_alloc graph node).contains (hrange node' hmem t ht)
  · exact hnode t ht

theorem size_alloc (node : Node) : (graph.alloc node).2.size = graph.size + 1 := by
  simp [alloc, size]

/-- The views of a reached graph are complete, and have nodes of their own. -/
structure Complete (given : Set TypeId) (graph : TypeGraph) : Prop where
  viewed : graph.Viewed []
  contains : ∀ t ∈ given, graph.Contains t
  own : ∀ o t, graph.Derived o t → t ∉ given

namespace Complete

theorem alloc {node : Node} (h : Complete given graph) (hsize : graph.size < 0x100000000)
    (hnode : ∀ t ∈ node.typeRefs, (graph.alloc node).2.Contains t) :
    Complete (insert (graph.alloc node).1 given) (graph.alloc node).2 := by
  have hadds := addsNodes_alloc graph node
  refine ⟨hadds.viewed h.viewed (inRange_alloc h.viewed.in_range hnode), ?_, ?_⟩
  · rintro t (rfl | ht)
    · rw [Contains, size_alloc]
      exact Nat.lt_succ_of_le (Nat.le_of_eq (toNat_next hsize))
    · exact hadds.contains (h.contains t ht)
  · rintro o t ht (rfl | hgiven)
    · exact not_contains_next hsize (h.viewed.contains_of_derived ((hadds.derived h.viewed).1 ht))
    · exact h.own o t ((hadds.derived h.viewed).1 ht) hgiven

theorem allocSignature {signature : StoredSignature} (h : Complete given graph) :
    Complete given (graph.allocSignature signature).2 := by
  have hadds := addsNodes_allocSignature graph signature
  exact ⟨hadds.viewed h.viewed h.viewed.in_range, h.contains,
    fun o t ht => h.own o t ((hadds.derived h.viewed).1 ht)⟩

theorem derives {graph' : TypeGraph} (h : Complete given graph) (hderives : graph.Derives graph' []) :
    Complete given graph' where
  viewed := hderives.viewed
  contains t ht := Nat.lt_of_lt_of_le (h.contains t ht) hderives.size_le
  own o t ht hgiven := (hderives.fresh o t ht).elim (fun hold => h.own o t hold hgiven) fun hnew =>
    Nat.not_le.2 (h.contains t hgiven) hnew

end Complete

theorem Reached.complete (h : Reached given graph) (hsize : graph.size ≤ 0x100000000) :
    Complete given graph := by
  induction h with
  | start hrange hviews =>
    exact ⟨viewed_of_empty hrange hviews, fun _ ht => ht,
      fun o t ho => (not_derived_of_empty hviews o t ho).elim⟩
  | alloc h hnode ih =>
    rw [size_alloc] at hsize
    exact (ih (Nat.le_of_lt hsize)).alloc hsize hnode
  | allocSignature h ih => exact (ih hsize).allocSignature
  | request request h ih =>
    have h := ih (Nat.le_trans (Enlarges.perform request _) hsize)
    obtain ⟨graph', hperforms⟩ := exists_performs h.viewed request hsize
    rw [hperforms.run]
    exact h.derives hperforms.derives

/-! ### The interface of a class -/

theorem Performs.hasInterfaces {graph' : TypeGraph} {c : TypeId} (h : Complete given graph)
    (hc : (graph.class? c).isSome) (hperforms : graph.Performs (.instanceInterface c) graph') :
    ∃ view, graph'.noted? (.instanceInterface c) = some view ∧ HasInterfaces given graph c view graph' := by
  have hderives := hperforms.derives
  have hinterfaces : ∀ d, (graph'.interfaceOf? d).isSome ↔
      (graph.interfaceOf? d).isSome ∨ graph.Inherits c d := by
    intro d
    rw [← holds_instanceInterface, hperforms.holds, holds_instanceInterface]
    refine or_congr_right ⟨?_, .instanceInterface hc⟩
    rintro (_ | _ | ⟨-, hinherits⟩)
    exact hinherits
  have hkept : ∀ d v, graph.interfaceOf? d = some v → graph'.interfaceOf? d = some v :=
    fun d v hv => derived_instanceInterface.1 (hderives.kept _ _ (.instanceInterface hv))
  obtain ⟨view, hview⟩ := Option.isSome_iff_exists.1 ((hinterfaces c).2 (.inr .refl))
  refine ⟨view, hview, hview, fun d hd => ?_, fun d hd => ?_, hkept, (h.derives hderives).own,
    hderives.viewed.distinct, fun o t ht => (hderives.fresh o t ht).imp_right Nat.not_lt.2, hderives.node⟩
  · obtain ⟨v, hv⟩ := Option.isSome_iff_exists.1 ((hinterfaces d).2 (.inr hd))
    obtain ⟨form, shape, hform, hnode, hfilled⟩ := hderives.viewed.filled d v hv List.not_mem_nil
    exact ⟨form, v, shape, (hderives.class? d).symm.trans hform, hv, hnode, hfilled⟩
  · cases hv : graph.interfaceOf? d with
    | some v => exact hkept d v hv
    | none =>
      refine Option.not_isSome_iff_eq_none.1 fun hsome => ?_
      rcases (hinterfaces d).1 hsome with hold | hinherits
      · simp [hv] at hold
      · exact hd hinherits

/-- The worklist of a class runs empty within the budget: more of it changes nothing. -/
theorem Viewed.allocInterfaces_budget (h : graph.Viewed []) {c : TypeId} (hc : (graph.class? c).isSome)
    (hsize : ((instanceInterface c).run.run graph).2.size ≤ 0x100000000) {budget : Nat}
    (hbudget : graph.baseTypeCount + 1 ≤ budget) : (allocInterfaces budget [c]).run.run graph =
      (allocInterfaces (graph.baseTypeCount + 1) [c]).run.run graph := by
  have hsize' : ((allocInterfaces (graph.baseTypeCount + 1) [c]).run.run graph).2.size ≤ 0x100000000 := by
    cases hnoted : graph.interfaceOf? c with
    | some v =>
      rw [run_allocInterfaces_skip _ (by simp [hnoted]), run_allocInterfaces_nil]
      exact Nat.le_trans (Enlarges.perform (.instanceInterface c) graph) hsize
    | none =>
      obtain ⟨form, hform⟩ := Option.isSome_iff_exists.1 hc
      rw [run_instanceInterface hform hnoted] at hsize
      exact Nat.le_trans (Enlarges.le_bind _ (fun pending => .bind (.fillInterfaces pending) fun _ =>
        .instanceInterface? c) graph) hsize
  obtain ⟨pending, graph', hrun, -⟩ := run_allocInterfaces_class h hc hsize'
  rw [hrun budget hbudget, hrun _ (Nat.le_refl _)]

theorem instanceInterface_of_reached (h : Reached given graph) {c : TypeId} (hc : (graph.class? c).isSome)
    (hsize : ((instanceInterface c).run.run graph).2.size ≤ 0x100000000) :
    (∃ view graph', (instanceInterface c).run.run graph = (.ok (some view), graph') ∧
      HasInterfaces given graph c view graph') ∧
    ∀ budget ≥ graph.baseTypeCount + 1, (allocInterfaces budget [c]).run.run graph =
      (allocInterfaces (graph.baseTypeCount + 1) [c]).run.run graph := by
  have hcomplete := h.complete (Nat.le_trans (Enlarges.perform (.instanceInterface c) graph) hsize)
  refine ⟨?_, fun budget hbudget => hcomplete.viewed.allocInterfaces_budget hc hsize hbudget⟩
  obtain ⟨graph', hperforms⟩ := exists_performs hcomplete.viewed (.instanceInterface c) hsize
  obtain ⟨view, hnoted, hinterfaces⟩ := hperforms.hasInterfaces hcomplete hc
  exact ⟨view, graph', hperforms.run.trans (by rw [hnoted]), hinterfaces⟩

/-- Class 0 inherits from the classes 1 and 2, both of these through one reference from class 3, and
class 3 from class 0. -/
def circle : TypeGraph where
  nodes := #[.form (.classDeclaration { shape := { baseTypes := [⟨1⟩, ⟨2⟩] } }),
    .form (.classDeclaration { shape := { baseTypes := [⟨4⟩] } }),
    .form (.classDeclaration { shape := { baseTypes := [⟨5⟩, ⟨4⟩] } }),
    .form (.classDeclaration { shape := { baseTypes := [⟨0⟩] } }),
    .form (.reference ⟨3⟩ [⟨5⟩]),
    .form (.simple .string)]

theorem inRange_circle : circle.InRange := by
  unfold InRange Contains
  decide

theorem instanceInterface_circle : ((instanceInterface ⟨0⟩).run.run circle).2.size = 12 ∧
    ((∃ view graph', (instanceInterface ⟨0⟩).run.run circle = (.ok (some view), graph') ∧
      HasInterfaces {t | circle.Contains t} circle ⟨0⟩ view graph') ∧
    ∀ budget ≥ circle.baseTypeCount + 1, (allocInterfaces budget [⟨0⟩]).run.run circle =
      (allocInterfaces (circle.baseTypeCount + 1) [⟨0⟩]).run.run circle) := by
  have hsize : ((instanceInterface ⟨0⟩).run.run circle).2.size = 12 := by decide +kernel
  exact ⟨hsize, instanceInterface_of_reached (.start inRange_circle rfl) (by decide) (by rw [hsize]; decide)⟩

end TypeEnv.TypeGraph
