import TypeEnv.Proofs.Views.RequestOrder

/-! Answers stand. Between requests anything can be allocated, with handles of nodes that come later or
never; only where a view is asked for, all handles have to be in the arena. So at any time the views are
those that the last request left, and nodes were added since. What is noted for a request stays noted,
its node stays what it is, and no other request is ever answered with it. -/

namespace TypeEnv

theorem ViewRequest.origin_injective : Function.Injective ViewRequest.origin := by
  intro request other h
  cases request <;> cases other <;> cases h <;> rfl

namespace TypeGraph

/-- One thing that is done with a graph. -/
inductive Operation : TypeGraph → TypeGraph → Prop where
  | alloc {graph : TypeGraph} (node : Node) : Operation graph (graph.alloc node).2
  | allocSignature {graph : TypeGraph} (signature : StoredSignature) :
    Operation graph (graph.allocSignature signature).2
  | allocEmptyInterface {graph : TypeGraph} : Operation graph graph.allocEmptyInterface.2
  | request {graph : TypeGraph} (request : ViewRequest) (hrange : graph.InRange) :
    Operation graph ((perform request).run.run graph).2

/-- Any number of operations, one after the other. -/
def Run : TypeGraph → TypeGraph → Prop := Relation.ReflTransGen Operation

variable (start graph later : TypeGraph)

/-- Nodes were added since the views were completed. -/
def Prepared : Prop := ∃ viewed : TypeGraph, viewed.Viewed [] ∧ viewed.AddsNodes graph

/-- The nodes and the views that there were are still there. -/
structure Keeps : Prop where
  size_le : graph.size ≤ later.size
  node : ∀ t, graph.Contains t → later.node? t = graph.node? t
  noted : ∀ request v, graph.noted? request = some v → later.noted? request = some v

/-- `v` became the view for `request` when `maker` was asked for at `before`; it was no node before. -/
structure MadeBy (request : ViewRequest) (v : TypeId) (before : TypeGraph) (maker : ViewRequest) :
    Prop where
  reached : Run start before
  in_range : before.InRange
  new : ¬ before.Contains v
  unnoted : before.noted? request = none
  noted : ((perform maker).run.run before).2.noted? request = some v
  since : Run ((perform maker).run.run before).2 graph

/-- `v` is the answer to `request` from now on; it was not a node before its view was made. -/
structure Stands (request : ViewRequest) (v : TypeId) : Prop where
  /-- The same request is answered in the same way, and changes nothing. -/
  again : ∀ later, Run graph later → later.size ≤ 0x100000000 →
    (perform request).run.run later = (.ok (some v), later)
  /-- No other request is. -/
  apart : ∀ later other, Run graph later → later.InRange →
    ((perform other).run.run later).2.size ≤ 0x100000000 →
    ((perform other).run.run later).1 = .ok (some v) → other = request
  made : ∃ before maker, MadeBy start graph request v before maker
  class_instance : ∀ source, request = .classInstance source → ∀ later, Run graph later →
    later.size ≤ 0x100000000 → later.node? v = some (.form (.classInstance source))
  interface_part : ∀ source, request = .interfacePart source → ∃ shape target typeArguments,
    graph.node? source = some (.form (.generic shape target typeArguments)) ∧
    ∀ later, Run graph later → later.size ≤ 0x100000000 →
      later.node? v = some (.form (.interface shape))

variable {start graph later}

/-! ### Keeping -/

theorem Keeps.refl (graph : TypeGraph) : graph.Keeps graph :=
  ⟨Nat.le_refl _, fun _ _ => rfl, fun _ _ => id⟩

theorem Keeps.trans {last : TypeGraph} (h : graph.Keeps later) (h' : later.Keeps last) :
    graph.Keeps last where
  size_le := Nat.le_trans h.size_le h'.size_le
  node t ht := (h'.node t (Nat.lt_of_lt_of_le ht h.size_le)).trans (h.node t ht)
  noted request v hv := h'.noted request v (h.noted request v hv)

theorem Keeps.node?_eq_some (h : graph.Keeps later) {t : TypeId} {node : Node}
    (hnode : graph.node? t = some node) : later.node? t = some node :=
  (h.node t (contains_of_node? hnode)).trans hnode

theorem AddsNodes.noted? (h : graph.AddsNodes later) (request : ViewRequest) :
    later.noted? request = graph.noted? request := by
  cases request <;> simp only [TypeGraph.noted?, TypeGraph.interfaceOf?, h.views]

theorem AddsNodes.keeps (h : graph.AddsNodes later) : graph.Keeps later where
  size_le := h.size_le
  node := h.node
  noted request v hv := by rwa [h.noted?]

theorem Derives.keeps (h : graph.Derives later []) : graph.Keeps later where
  size_le := h.size_le
  node := h.node
  noted _ _ hv := derived_origin.1 (h.kept _ _ (derived_origin.2 hv))

theorem Prepared.addsNodes (h : graph.Prepared) (hadds : graph.AddsNodes later) : later.Prepared := by
  obtain ⟨viewed, hviewed, hgraph⟩ := h
  exact ⟨viewed, hviewed, hgraph.trans hadds⟩

theorem Prepared.viewed (h : graph.Prepared) (hrange : graph.InRange) : graph.Viewed [] := by
  obtain ⟨viewed, hviewed, hadds⟩ := h
  exact hadds.viewed hviewed hrange

theorem Viewed.prepared (h : graph.Viewed []) : graph.Prepared :=
  ⟨graph, h, .refl graph⟩

/-- A graph without views has none to complete, whatever handles it holds. -/
theorem prepared_of_empty (hviews : graph.views = {}) : graph.Prepared := by
  have hrange : (∅ : TypeGraph).InRange := by
    intro node hnode
    cases Array.not_mem_empty node hnode
  refine ⟨∅, viewed_of_empty hrange rfl, Nat.zero_le _, fun t ht => ?_, hviews⟩
  exact absurd ht (Nat.not_lt_zero _)

/-! ### Operations -/

theorem Operation.size_le (h : Operation graph later) : graph.size ≤ later.size := by
  cases h with
  | alloc node => exact (addsNodes_alloc graph node).size_le
  | allocSignature signature => exact Nat.le_refl _
  | allocEmptyInterface => exact (addsNodes_alloc graph _).size_le
  | request request => exact Enlarges.perform request graph

theorem Operation.keeps (h : Operation graph later) (hgraph : graph.Prepared)
    (hsize : later.size ≤ 0x100000000) : graph.Keeps later ∧ later.Prepared := by
  cases h with
  | alloc node =>
    have hadds := addsNodes_alloc graph node
    exact ⟨hadds.keeps, hgraph.addsNodes hadds⟩
  | allocSignature signature =>
    have hadds := addsNodes_allocSignature graph signature
    exact ⟨hadds.keeps, hgraph.addsNodes hadds⟩
  | allocEmptyInterface =>
    have hadds := addsNodes_alloc graph (.form (.interface {}))
    exact ⟨hadds.keeps, hgraph.addsNodes hadds⟩
  | request request hrange =>
    obtain ⟨later, hperforms⟩ := exists_performs (hgraph.viewed hrange) request hsize
    rw [hperforms.run]
    exact ⟨hperforms.derives.keeps, hperforms.derives.viewed.prepared⟩

theorem Run.keeps (h : Run graph later) (hgraph : graph.Prepared)
    (hsize : later.size ≤ 0x100000000) : graph.Keeps later ∧ later.Prepared := by
  induction h with
  | refl => exact ⟨.refl graph, hgraph⟩
  | tail _ hlast ih =>
    obtain ⟨hkeeps, hmid⟩ := ih (Nat.le_trans hlast.size_le hsize)
    obtain ⟨hstep, hlater⟩ := hlast.keeps hmid hsize
    exact ⟨hkeeps.trans hstep, hlater⟩

/-! ### When views are made -/

theorem MadeBy.tail {request maker : ViewRequest} {v : TypeId} {before : TypeGraph}
    (h : MadeBy start graph request v before maker) (hlast : Operation graph later) :
    MadeBy start later request v before maker :=
  { h with since := h.since.tail hlast }

theorem not_contains_of_unnoted (h : graph.Derives later []) {request : ViewRequest} {v : TypeId}
    (hnone : graph.noted? request = none) (hv : later.noted? request = some v) :
    ¬ graph.Contains v := by
  rcases h.fresh _ _ (derived_origin.2 hv) with hold | hnew
  · rw [derived_origin, hnone] at hold
    cases hold
  · exact Nat.not_lt.2 hnew

/-- Every view that is noted was made on the way, and was no node before. -/
theorem Run.exists_madeBy (hviews : start.views = {}) (h : Run start graph)
    (hsize : graph.size ≤ 0x100000000) {request : ViewRequest} {v : TypeId}
    (hv : graph.noted? request = some v) : ∃ before maker, MadeBy start graph request v before maker := by
  induction h with
  | refl =>
    have hnone := not_derived_of_empty hviews request.origin v
    exact absurd (derived_origin.2 hv) hnone
  | @tail mid last hrun hlast ih =>
    have hmidsize := Nat.le_trans hlast.size_le hsize
    have hmid : mid.Prepared := (Run.keeps hrun (prepared_of_empty hviews) hmidsize).2
    have hkeeps : mid.Keeps last := (hlast.keeps hmid hsize).1
    cases hnoted : mid.noted? request with
    | some v' =>
      have hkept := hkeeps.noted request v' hnoted
      obtain rfl : v' = v := Option.some.inj (hkept.symm.trans hv)
      obtain ⟨before, maker, hmade⟩ := ih hmidsize hnoted
      exact ⟨before, maker, hmade.tail hlast⟩
    | none =>
      cases hlast with
      | alloc node =>
        rw [(addsNodes_alloc mid node).noted?, hnoted] at hv
        cases hv
      | allocSignature signature =>
        rw [(addsNodes_allocSignature mid signature).noted?, hnoted] at hv
        cases hv
      | allocEmptyInterface =>
        rw [allocEmptyInterface, (addsNodes_alloc mid _).noted?, hnoted] at hv
        cases hv
      | request maker hrange =>
        obtain ⟨last, hperforms⟩ := exists_performs (hmid.viewed hrange) maker hsize
        have hnew : ¬ mid.Contains v := by
          rw [hperforms.run] at hv
          exact not_contains_of_unnoted hperforms.derives hnoted hv
        exact ⟨mid, maker, hrun, hrange, hnew, hnoted, hv, .refl⟩

/-! ### Answers -/

/-- A view that is noted stands as the answer to its request. -/
theorem Run.stands (hviews : start.views = {}) (h : Run start graph) (hgraph : graph.Viewed [])
    (hsize : graph.size ≤ 0x100000000) {request : ViewRequest} {v : TypeId}
    (hv : graph.noted? request = some v) : Stands start graph request v where
  again later hlater hsize' := by
    have hkeeps := (hlater.keeps hgraph.prepared hsize').1
    exact run_perform_of_noted request (hkeeps.noted request v hv)
  apart later other hlater hrange hsize' hanswer := by
    have hbefore := Nat.le_trans (Enlarges.perform other later) hsize'
    obtain ⟨hkeeps, hprepared⟩ := hlater.keeps hgraph.prepared hbefore
    obtain ⟨last, hperforms⟩ := exists_performs (hprepared.viewed hrange) other hsize'
    have hother : last.noted? other = some v := by
      rw [hperforms.run] at hanswer
      exact Except.ok.inj hanswer
    have hrequest : last.noted? request = some v :=
      hperforms.derives.keeps.noted request v (hkeeps.noted request v hv)
    apply ViewRequest.origin_injective
    exact hperforms.derives.viewed.distinct _ _ v (derived_origin.2 hother)
      (derived_origin.2 hrequest)
  made := h.exists_madeBy hviews hsize hv
  class_instance := by
    rintro source rfl later hlater hsize'
    have hnode := (hgraph.instances source v hv).2
    exact (hlater.keeps hgraph.prepared hsize').1.node?_eq_some hnode
  interface_part := by
    rintro source rfl
    obtain ⟨shape, target, typeArguments, hsource, hnode⟩ := hgraph.parts source v hv
    refine ⟨shape, target, typeArguments, hsource, fun later hlater hsize' => ?_⟩
    exact (hlater.keeps hgraph.prepared hsize').1.node?_eq_some hnode

/-- Whatever was done before, a request made where all handles are in range is answered and leaves
alone what there was, and a view that it is answered with stands. -/
theorem stands_of_request (hviews : start.views = {}) (h : Run start graph) (hrange : graph.InRange)
    (request : ViewRequest) (hsize : ((perform request).run.run graph).2.size ≤ 0x100000000) :
    ∃ answer later, (perform request).run.run graph = (.ok answer, later) ∧
      (∀ t, graph.Contains t → later.node? t = graph.node? t) ∧
      later.signatures = graph.signatures ∧ later.registry = graph.registry ∧
      ∀ v, answer = some v → Stands start later request v := by
  have hbefore := Nat.le_trans (Enlarges.perform request graph) hsize
  have hprepared : graph.Prepared := (h.keeps (prepared_of_empty hviews) hbefore).2
  have hoperation : Operation graph _ := .request request hrange
  obtain ⟨later, hperforms⟩ := exists_performs (hprepared.viewed hrange) request hsize
  have hderives := hperforms.derives
  rw [hperforms.run] at hoperation hsize
  refine ⟨_, later, hperforms.run, hderives.node, hderives.signatures, hderives.registry,
    fun v hv => ?_⟩
  exact Run.stands hviews (h.tail hoperation) hderives.viewed hsize hv

/-- Class 0 was allocated when the class it inherits from was not there yet. -/
def forwardClasses : TypeGraph :=
  ((alloc ∅ (.form (.classDeclaration { shape := { baseTypes := [⟨1⟩] } }))).2.alloc
    (.form (.classDeclaration {}))).2

theorem stands_forwardClasses : Run ∅ forwardClasses ∧ forwardClasses.InRange ∧
    ∃ later, (perform (.instanceInterface ⟨0⟩)).run.run forwardClasses = (.ok (some ⟨2⟩), later) ∧
      Stands ∅ later (.instanceInterface ⟨0⟩) ⟨2⟩ := by
  have hrun : Run ∅ forwardClasses := .tail (.tail .refl (.alloc _)) (.alloc _)
  have hrange : forwardClasses.InRange := by
    unfold InRange Contains
    decide
  have hsize : ((perform (.instanceInterface ⟨0⟩)).run.run forwardClasses).2.size = 4 := by
    decide +kernel
  have hview : ((perform (.instanceInterface ⟨0⟩)).run.run forwardClasses).1.toOption =
      some (some ⟨2⟩) := by
    decide +kernel
  obtain ⟨answer, later, hperform, -, -, -, hstands⟩ :=
    stands_of_request rfl hrun hrange (.instanceInterface ⟨0⟩) (by rw [hsize]; decide)
  rw [hperform] at hview
  obtain rfl : answer = some ⟨2⟩ := by simpa [Except.toOption] using hview
  exact ⟨hrun, hrange, later, hperform, hstands ⟨2⟩ rfl⟩

end TypeGraph

end TypeEnv
