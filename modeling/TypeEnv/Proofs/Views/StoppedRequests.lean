import TypeEnv.Proofs.Views.Requests

/-! Requests that are stopped. A request for the interface of a class is stopped by a base type, or the target
of a reference among the base types, that is past the end of the arena. The base types of a class are looked up
before its view is added, so a class that itself names such a handle stops its own request before anything is
changed. But classes further up are looked at when the views of those below have been added and noted. These
stay, with their base types open, and are the answer to later requests. -/

namespace TypeEnv.TypeGraph

open Stateful

/-- The class names a base type that cannot be looked up. -/
def Dangles (graph : TypeGraph) (t : TypeId) : Prop :=
  ∃ form, graph.class? t = some form ∧ ∃ base ∈ form.shape.baseTypes, ¬ graph.Reaches base

/-- Views have been opened one after the other, each for a class that has none and all of whose base types can
be looked up. -/
inductive Opening : TypeGraph → TypeGraph → Prop where
  | refl (graph : TypeGraph) : Opening graph graph
  | step {graph graph' : TypeGraph} {d : TypeId} {form : ClassForm TypeId SignatureId} :
    graph.class? d = some form → graph.interfaceOf? d = none → ¬ graph.Dangles d →
    Opening (graph.withView (.instanceInterface d) (.form (.interface (openInterface form)))) graph' →
    Opening graph graph'

variable {graph graph' : TypeGraph} {d t v base : TypeId} {form : ClassForm TypeId SignatureId}

theorem reaches_of_not_dangles (h : ¬ graph.Dangles t) (hform : graph.class? t = some form) :
    ∀ base ∈ form.shape.baseTypes, graph.Reaches base := by
  intro base hbase
  by_contra hreaches
  exact h ⟨form, hform, base, hbase, hreaches⟩

/-! ### What stays -/

theorem Grows.refl (graph : TypeGraph) : graph.Grows graph :=
  ⟨fun _ _ hnode => .inl hnode, fun _ _ hv => hv⟩

theorem Grows.trans {later : TypeGraph} (h : graph.Grows graph') (h' : graph'.Grows later) : graph.Grows later where
  node t node hnode := by
    rcases h.node t node hnode with hnode' | ⟨shape, shape', rfl, hnode'⟩
    · exact h'.node t node hnode'
    · rcases h'.node t _ hnode' with hnode'' | ⟨_, shape'', -, hnode''⟩
      · exact .inr ⟨shape, shape', rfl, hnode''⟩
      · exact .inr ⟨shape, shape'', rfl, hnode''⟩
  interface d v hv := h'.interface d v (h.interface d v hv)

theorem Grows.contains (h : graph.Grows graph') (ht : graph.Contains t) : graph'.Contains t := by
  obtain ⟨node, hnode⟩ := exists_node_of_contains ht
  rcases h.node t node hnode with hnode' | ⟨_, _, -, hnode'⟩ <;> exact contains_of_node? hnode'

theorem Grows.reaches (h : graph.Grows graph') (hbase : graph.Reaches base) : graph'.Reaches base := by
  refine ⟨h.contains hbase.1, fun target typeArguments hnode' => h.contains (hbase.2 target typeArguments ?_)⟩
  obtain ⟨node, hnode⟩ := exists_node_of_contains hbase.1
  rcases h.node base node hnode with hsame | ⟨_, _, -, hinterface⟩
  · rw [hnode, ← hnode', hsame]
  · cases hinterface.symm.trans hnode'

theorem node?_withView_of_not_contains {o : Origin} {node : Node} (h : ¬ graph.Contains t) :
    (graph.withView o node).node? t = none ∨ (graph.withView o node).node? t = some node := by
  rw [Contains, size, Nat.not_lt] at h
  simp only [node?, withView, Array.getElem?_push]
  split
  · exact .inr rfl
  · exact .inl (Array.getElem?_eq_none h)

theorem contains_next_withView {o : Origin} {node : Node} : (graph.withView o node).Contains graph.next := by
  have hmod : graph.next.val.toNat = graph.size % 0x100000000 := UInt32.toNat_ofNat'
  rw [Contains, size_withView, hmod]
  exact Nat.lt_succ_of_le (Nat.mod_le _ _)

/-- A view is no class, also where its handle was past the end before. -/
theorem class?_withView (o : Origin) (shape : Shape TypeId SignatureId) (t : TypeId) :
    (graph.withView o (.form (.interface shape))).class? t = graph.class? t := by
  by_cases ht : graph.Contains t
  · rw [class?, node?_withView ht, class?]
  · rw [class?_eq_none_of_not_contains ht, class?]
    rcases node?_withView_of_not_contains ht with hnode | hnode <;> rw [hnode] <;> rfl

theorem classBehind?_withView (o : Origin) (shape : Shape TypeId SignatureId) (base : TypeId) :
    (graph.withView o (.form (.interface shape))).classBehind? base = graph.classBehind? base := by
  by_cases hbase : graph.Contains base
  · simp only [classBehind?, node?_withView hbase, class?_withView]
  · rw [classBehind?, classBehind?, node?_eq_none.2 hbase]
    rcases node?_withView_of_not_contains hbase with hnode | hnode <;> rw [hnode]

theorem extends_of_withView {o : Origin} {shape : Shape TypeId SignatureId}
    (h : (graph.withView o (.form (.interface shape))).Extends d t) : graph.Extends d t := by
  obtain ⟨form, hform, base, hbase, ht⟩ := h
  rw [class?_withView] at hform
  rw [classBehind?_withView] at ht
  exact ⟨form, hform, base, hbase, ht⟩

namespace Opening

theorem grows (h : graph.Opening graph') : graph.Grows graph' := by
  induction h with
  | refl graph => exact .refl graph
  | step hform hnone _ _ ih => exact (grows_withView (.instanceInterface hform) (by simp [hnone])).trans ih

/-- All that is added are interfaces whose base types are open. -/
theorem exists_nodes (h : graph.Opening graph') : ∃ forms : List (ClassForm TypeId SignatureId),
    graph'.nodes.toList = graph.nodes.toList ++ forms.map fun form => .form (.interface (openInterface form)) := by
  induction h with
  | refl graph => exact ⟨[], (List.append_nil _).symm⟩
  | @step graph _ _ form _ _ _ _ ih =>
    obtain ⟨forms, hforms⟩ := ih
    refine ⟨form :: forms, hforms.trans ?_⟩
    rw [withView, Array.toList_push, List.append_assoc]
    rfl

theorem rest (h : graph.Opening graph') : graph'.signatures = graph.signatures ∧ graph'.registry = graph.registry ∧
    graph'.views.instances = graph.views.instances ∧ graph'.views.interfaceParts = graph.views.interfaceParts := by
  induction h with
  | refl graph => exact ⟨rfl, rfl, rfl, rfl⟩
  | step _ _ _ _ ih => exact ih

end Opening

/-! ### Looking up -/

theorem run_lookUp_of_not_contains (h : ¬ graph.Contains t) :
    (lookUp t).run.run graph = (.error ⟨graph.size, t.val.toNat⟩, graph) := by
  simp only [lookUp, run_bind, run_get, TypeGraph.node, node?_eq_none.2 h]
  rfl

/-- The error of a look-up tells the size of the arena. -/
theorem run_baseClass?_of_not_reaches (h : ¬ graph.Reaches base) :
    ∃ index, (baseClass? base).run.run graph = (.error ⟨graph.size, index⟩, graph) := by
  by_cases hbase : graph.Contains base
  · obtain ⟨node, hnode⟩ := exists_node_of_contains hbase
    obtain ⟨target, typeArguments, hreference, htarget⟩ : ∃ target typeArguments,
        graph.node? base = some (.form (.reference target typeArguments)) ∧ ¬ graph.Contains target := by
      by_contra hall
      push Not at hall
      exact h ⟨hbase, hall⟩
    refine ⟨target.val.toNat, ?_⟩
    rw [baseClass?, run_bind, run_lookUp graph hreference]
    simp only [run_bind, run_lookUp_of_not_contains htarget]
  · refine ⟨base.val.toNat, ?_⟩
    rw [baseClass?, run_bind, run_lookUp_of_not_contains hbase]

theorem run_filterMapM_baseClass?_of_not_reaches {bases : List TypeId} (h : ∃ base ∈ bases, ¬ graph.Reaches base) :
    ∃ index, (bases.filterMapM baseClass?).run.run graph = (.error ⟨graph.size, index⟩, graph) := by
  induction bases with
  | nil => simp at h
  | cons base bases ih =>
    rw [List.filterMapM_cons, run_bind]
    by_cases hbase : graph.Reaches base
    · obtain ⟨index, hrun⟩ := ih (by simpa [hbase] using h)
      refine ⟨index, ?_⟩
      rw [run_baseClass? hbase]
      cases graph.classBehind? base with
      | none => exact hrun
      | some t => simp only [run_bind, hrun]
    · obtain ⟨index, hrun⟩ := run_baseClass?_of_not_reaches hbase
      exact ⟨index, by rw [hrun]⟩

theorem run_allocInterfaces_of_dangles (budget : Nat) (worklist : List TypeId) (h : graph.Dangles d)
    (hnone : graph.interfaceOf? d = none) :
    ∃ index, (allocInterfaces (budget + 1) (d :: worklist)).run.run graph = (.error ⟨graph.size, index⟩, graph) := by
  obtain ⟨form, hform, hbases⟩ := h
  obtain ⟨index, hrun⟩ := run_filterMapM_baseClass?_of_not_reaches hbases
  refine ⟨index, ?_⟩
  rw [allocInterfaces, run_bind, run_instanceInterface?, hnone]
  simp only [Option.isSome_none, Bool.false_eq_true, if_false, run_bind,
    run_lookUp graph (class?_eq_some.1 hform), Node.class?, TypeForm.class?, hrun]

/-! ### Opening views -/

/-- The base types of the view can be filled in. -/
structure Fillable (graph : TypeGraph) (d v : TypeId) : Prop where
  contains : graph.Contains v
  class_behind : ∃ form, graph.class? d = some form ∧ ∀ base ∈ form.shape.baseTypes, graph.Reaches base

theorem Grows.fillable (h : graph.Grows graph') (hfillable : graph.Fillable d v) : graph'.Fillable d v where
  contains := h.contains hfillable.contains
  class_behind := by
    obtain ⟨form, hform, hreaches⟩ := hfillable.class_behind
    exact ⟨form, h.class?_eq_some hform, fun base hbase => h.reaches (hreaches base hbase)⟩

/-- How far the worklist gets, and what stops it. -/
inductive Ends (graph : TypeGraph) (worklist : List TypeId) :
    Except OutOfBounds (List (TypeId × TypeId)) → TypeGraph → Prop where
  | done {pending graph'} : graph.Opening graph' → (∀ p ∈ pending, graph'.Fillable p.1 p.2) →
    Ends graph worklist (.ok pending) graph'
  | stopped {graph' t d index} : graph.Opening graph' → t ∈ worklist → graph.Inherits t d → graph'.Dangles d →
    Ends graph worklist (.error ⟨graph'.size, index⟩) graph'

theorem Ends.mono {worklist worklist' : List TypeId} {result : Except OutOfBounds (List (TypeId × TypeId))}
    (h : graph.Ends worklist result graph') (hsub : worklist ⊆ worklist') : graph.Ends worklist' result graph' := by
  cases h with
  | done hopening hfillable => exact .done hopening hfillable
  | stopped hopening ht hinherits hdangles => exact .stopped hopening (hsub ht) hinherits hdangles

theorem Ends.stops {worklist : List TypeId} {fault : OutOfBounds} (h : graph.Ends worklist (.error fault) graph') :
    fault.size = graph'.size ∧ ∃ t ∈ worklist, ∃ d, graph.Inherits t d ∧ graph'.Dangles d := by
  cases h with
  | stopped _ ht hinherits hdangles => exact ⟨rfl, _, ht, _, hinherits, hdangles⟩

/-- The view of a class is opened, and the classes that it extends are what the rest of the run starts with. -/
theorem Ends.take {worklist : List TypeId} {result : Except OutOfBounds (List (TypeId × TypeId))}
    (hform : graph.class? d = some form) (hnone : graph.interfaceOf? d = none) (hdangles : ¬ graph.Dangles d)
    (h : (graph.withView (.instanceInterface d) (.form (.interface (openInterface form)))).Ends
      ((form.shape.baseTypes.filterMap graph.classBehind?).reverse ++ worklist) result graph') :
    graph.Ends (d :: worklist) ((fun pending => (d, graph.next) :: pending) <$> result) graph' := by
  cases h with
  | done hopening hfillable =>
    have hgrows := (Opening.step hform hnone hdangles (.refl _)).grows
    refine .done (.step hform hnone hdangles hopening) (List.forall_mem_cons.2 ⟨?_, hfillable⟩)
    exact hopening.grows.fillable ⟨contains_next_withView, form, hgrows.class?_eq_some hform,
      fun base hbase => hgrows.reaches (reaches_of_not_dangles hdangles hform base hbase)⟩
  | @stopped _ t e index hopening ht hinherits hstops =>
    have hinherits' : graph.Inherits t e :=
      Relation.ReflTransGen.mono (fun _ _ => extends_of_withView) t e hinherits
    rcases List.mem_append.1 ht with ht | ht
    · obtain ⟨base, hbase, ht⟩ := List.mem_filterMap.1 (List.mem_reverse.1 ht)
      exact .stopped (.step hform hnone hdangles hopening) List.mem_cons_self
        (.head ⟨form, hform, base, hbase, ht⟩ hinherits') hstops
    · exact .stopped (.step hform hnone hdangles hopening) (List.mem_cons_of_mem _ ht) hinherits' hstops

/-- Only classes are put on the worklist, and a view does not change which handles are classes. -/
theorem isSome_class?_of_take {worklist : List TypeId} (hclasses : ∀ t ∈ worklist, (graph.class? t).isSome)
    (bases : List TypeId) (o : Origin) (shape : Shape TypeId SignatureId) :
    ∀ t ∈ (bases.filterMap graph.classBehind?).reverse ++ worklist,
      ((graph.withView o (.form (.interface shape))).class? t).isSome := by
  intro t ht
  rw [class?_withView]
  rcases List.mem_append.1 ht with ht | ht
  · obtain ⟨base, -, ht⟩ := List.mem_filterMap.1 (List.mem_reverse.1 ht)
    exact class_of_classBehind? ht
  · exact hclasses t ht

theorem ends_allocInterfaces (budget : Nat) : ∀ (graph : TypeGraph) (worklist : List TypeId),
    (∀ t ∈ worklist, (graph.class? t).isSome) → ∃ result graph',
      (allocInterfaces budget worklist).run.run graph = (result, graph') ∧ graph.Ends worklist result graph' := by
  induction budget with
  | zero => exact fun graph worklist _ => ⟨_, _, rfl, .done (.refl graph) (by simp)⟩
  | succ budget ih =>
    intro graph worklist hclasses
    rcases worklist with _ | ⟨d, worklist⟩
    · exact ⟨_, _, rfl, .done (.refl graph) (by simp)⟩
    obtain ⟨hd, hclasses⟩ := List.forall_mem_cons.1 hclasses
    obtain ⟨form, hform⟩ := Option.isSome_iff_exists.1 hd
    cases hv : graph.interfaceOf? d with
    | some v =>
      rw [run_allocInterfaces_skip budget (by simp [hv])]
      obtain ⟨result, graph', hrun, hends⟩ := ih graph worklist hclasses
      exact ⟨result, graph', hrun, hends.mono (List.subset_cons_self d worklist)⟩
    | none =>
      by_cases hdangles : graph.Dangles d
      · obtain ⟨index, hrun⟩ := run_allocInterfaces_of_dangles budget worklist hdangles hv
        exact ⟨_, _, hrun, .stopped (.refl graph) List.mem_cons_self .refl hdangles⟩
      · obtain ⟨result, graph', hrun, hends⟩ := ih _ _ (isSome_class?_of_take hclasses form.shape.baseTypes _ _)
        refine ⟨_, graph', ?_, hends.take hform hv hdangles⟩
        rw [run_allocInterfaces_take budget hform (reaches_of_not_dangles hdangles hform) hv, run_map, hrun]
        cases result <;> rfl

/-! ### Filling in views

Once the views are opened, nothing stops the request any more: nodes only come in addition, and the views are the
only ones that are exchanged. -/

theorem exists_run_instanceSide (h : graph.Reaches base) :
    ∃ b graph', (instanceSide base).run.run graph = (.ok b, graph') ∧ graph.Grows graph' := by
  obtain ⟨node, hnode⟩ := exists_node_of_contains h.1
  rw [instanceSide, run_bind, run_lookUp graph hnode]
  rcases node with form | record
  · cases form with
    | reference target typeArguments =>
      obtain ⟨node, htarget⟩ := exists_node_of_contains (h.2 target typeArguments hnode)
      simp only [run_bind, run_lookUp graph htarget]
      split
      · rw [run_bind, run_instanceInterface?]
        cases graph.interfaceOf? target with
        | none => exact ⟨_, _, rfl, .refl graph⟩
        | some view => exact ⟨_, _, rfl, (addsNodes_alloc graph _).grows⟩
      · exact ⟨_, _, rfl, .refl graph⟩
    | _ => exact ⟨_, _, rfl, .refl graph⟩
  · exact ⟨_, _, rfl, .refl graph⟩

theorem exists_run_mapM_instanceSide {bases : List TypeId} : ∀ {graph : TypeGraph},
    (∀ base ∈ bases, graph.Reaches base) →
    ∃ sides graph', (bases.mapM instanceSide).run.run graph = (.ok sides, graph') ∧ graph.Grows graph' := by
  induction bases with
  | nil => exact fun {graph} _ => ⟨_, _, rfl, .refl graph⟩
  | cons base bases ih =>
    intro graph hbases
    obtain ⟨hbase, hbases⟩ := List.forall_mem_cons.1 hbases
    obtain ⟨b, mid, hrun, hgrows⟩ := exists_run_instanceSide hbase
    obtain ⟨sides, graph', hrun', hgrows'⟩ := ih fun base hbase => hgrows.reaches (hbases base hbase)
    refine ⟨b :: sides, graph', ?_, hgrows.trans hgrows'⟩
    simp only [List.mapM_cons, run_bind, hrun, hrun', run_pure]

theorem exists_run_fillInterface (h : graph.Fillable d v) :
    ∃ graph', (fillInterface d v).run.run graph = (.ok (), graph') ∧ graph.Grows graph' := by
  obtain ⟨form, hform, hreaches⟩ := h.class_behind
  obtain ⟨sides, mid, hrun, hgrows⟩ := exists_run_mapM_instanceSide hreaches
  obtain ⟨node, hnode⟩ := exists_node_of_contains (hgrows.contains h.contains)
  simp only [fillInterface, run_bind, run_lookUp graph (class?_eq_some.1 hform), Node.class?, TypeForm.class?, hrun,
    run_lookUp mid hnode]
  split
  · next shape => exact ⟨_, run_replace mid v _, hgrows.trans (grows_fill hnode)⟩
  · exact ⟨mid, rfl, hgrows⟩

theorem exists_run_fillInterfaces {pending : List (TypeId × TypeId)} : ∀ {graph : TypeGraph},
    (∀ p ∈ pending, graph.Fillable p.1 p.2) →
    ∃ graph', (fillInterfaces pending).run.run graph = (.ok (), graph') := by
  induction pending with
  | nil => exact fun {graph} _ => ⟨graph, rfl⟩
  | cons p pending ih =>
    intro graph hpending
    obtain ⟨hp, hpending⟩ := List.forall_mem_cons.1 hpending
    obtain ⟨mid, hrun, hgrows⟩ := exists_run_fillInterface hp
    obtain ⟨graph', hrun'⟩ := ih fun p hp => hgrows.fillable (hpending p hp)
    refine ⟨graph', ?_⟩
    rw [fillInterfaces, run_bind, hrun]
    exact hrun'

/-! ### What a stopped request leaves -/

/-- Open views of the class and of some that it inherits from are there in addition. That of the class is noted,
so it is the answer from now on. -/
structure Abandons (graph : TypeGraph) (source : TypeId) (graph' : TypeGraph) : Prop where
  nodes : ∃ form, graph.class? source = some form ∧ ∃ forms, graph'.nodes.toList =
    graph.nodes.toList ++ (form :: forms).map fun form => .form (.interface (openInterface form))
  signatures : graph'.signatures = graph.signatures
  registry : graph'.registry = graph.registry
  instances : graph'.views.instances = graph.views.instances
  interface_parts : graph'.views.interfaceParts = graph.views.interfaceParts
  interfaces : ∀ d v, graph.interfaceOf? d = some v → graph'.interfaceOf? d = some v
  again : (instanceInterface source).run.run graph' = (.ok (some graph.next), graph')

variable {source : TypeId} {fault : OutOfBounds}

/-- Only the opening of views can stop a request. -/
theorem run_allocInterfaces_of_stopped (h : (instanceInterface source).run.run graph = (.error fault, graph')) :
    graph.interfaceOf? source = none ∧ (∃ form, graph.class? source = some form) ∧
      (allocInterfaces (graph.baseTypeCount + 1) [source]).run.run graph = (.error fault, graph') := by
  cases hnone : graph.interfaceOf? source with
  | some v =>
    cases h.symm.trans (run_perform_of_noted (.instanceInterface source) hnone)
  | none =>
    cases hform : graph.class? source with
    | none =>
      simp only [instanceInterface, run_bind, run_instanceInterface?, hnone, run_classAt?, hform] at h
      cases h
    | some form =>
      refine ⟨rfl, ⟨form, rfl⟩, ?_⟩
      rw [run_instanceInterface hform hnone, run_bind] at h
      obtain ⟨result, mid, hrun, hends⟩ := ends_allocInterfaces (graph.baseTypeCount + 1) graph [source]
        (by simp [hform])
      rw [hrun] at h ⊢
      cases hends with
      | done _ hfillable =>
        obtain ⟨graph'', hfill⟩ := exists_run_fillInterfaces hfillable
        simp only [run_bind, hfill] at h
        cases h
      | stopped =>
        cases h
        rfl

theorem Abandons.of_opening (hform : graph.class? source = some form) (hnone : graph.interfaceOf? source = none)
    (hopening : (graph.withView (.instanceInterface source) (.form (.interface (openInterface form)))).Opening
      graph') : graph.Abandons source graph' := by
  obtain ⟨forms, hforms⟩ := hopening.exists_nodes
  obtain ⟨hsignatures, hregistry, hinstances, hparts⟩ := hopening.rest
  have hgrows := grows_withView (.instanceInterface hform) (by simp [hnone])
  refine ⟨⟨form, hform, forms, hforms.trans ?_⟩, hsignatures, hregistry, hinstances, hparts,
    (hgrows.trans hopening.grows).interface, ?_⟩
  · rw [withView, Array.toList_push, List.append_assoc]
    rfl
  · refine run_perform_of_noted (.instanceInterface source) (hopening.grows.interface source graph.next ?_)
    rw [interfaceOf?_withView, if_pos rfl]

theorem Abandons.size_lt (h : graph.Abandons source graph') : graph.size < graph'.size := by
  obtain ⟨form, -, forms, hnodes⟩ := h.nodes
  have hlength := congrArg List.length hnodes
  simp only [Array.length_toList, List.length_append, List.length_map, List.length_cons] at hlength
  rw [size, size]
  omega

/-- A stopped request changes nothing exactly if the class itself names the handle that stops it. -/
theorem eq_iff_dangles_of_stopped (h : (instanceInterface source).run.run graph = (.error fault, graph')) :
    (∃ d, graph.Inherits source d ∧ graph'.Dangles d) ∧ fault.size = graph'.size ∧
      (graph' = graph ↔ graph.Dangles source) ∧ (¬ graph.Dangles source → graph.Abandons source graph') := by
  obtain ⟨hnone, ⟨form, hform⟩, hrun⟩ := run_allocInterfaces_of_stopped h
  by_cases hdangles : graph.Dangles source
  · obtain ⟨index, hrun'⟩ := run_allocInterfaces_of_dangles graph.baseTypeCount [] hdangles hnone
    cases hrun'.symm.trans hrun
    exact ⟨⟨source, .refl, hdangles⟩, rfl, iff_of_true rfl hdangles, fun hnot => absurd hdangles hnot⟩
  · have hclasses : ∀ t ∈ ([] : List TypeId), (graph.class? t).isSome := List.forall_mem_nil _
    obtain ⟨result, graph'', hrun', hends⟩ := ends_allocInterfaces graph.baseTypeCount _ _
      (isSome_class?_of_take hclasses form.shape.baseTypes (.instanceInterface source) (openInterface form))
    have htake := hends.take hform hnone hdangles
    rw [run_allocInterfaces_take _ hform (reaches_of_not_dangles hdangles hform) hnone, run_map, hrun'] at hrun
    cases hends with
    | done => cases hrun
    | stopped hopening =>
      cases hrun
      have habandons := Abandons.of_opening hform hnone hopening
      obtain ⟨hsize, t, ht, d, hinherits, hstops⟩ := Ends.stops htake
      obtain rfl := List.mem_singleton.1 ht
      refine ⟨⟨d, hinherits, hstops⟩, hsize, iff_of_false ?_ hdangles, fun _ => habandons⟩
      exact fun heq => habandons.size_lt.ne (congrArg size heq.symm)

/-- A class with a base class, one of whose own base types is past the end of the arena. -/
def danglingGraph : TypeGraph :=
  let extending (base : TypeId) : Node := .form (.classDeclaration { shape := { baseTypes := [base] } })
  ((empty.alloc (extending ⟨1⟩)).2.alloc (extending ⟨7⟩)).2

theorem danglingGraph_stopped : ∃ fault graph',
    (instanceInterface ⟨0⟩).run.run danglingGraph = (.error fault, graph') ∧
      ((∃ d, danglingGraph.Inherits ⟨0⟩ d ∧ graph'.Dangles d) ∧ fault.size = graph'.size ∧
        (graph' = danglingGraph ↔ danglingGraph.Dangles ⟨0⟩) ∧
        (¬ danglingGraph.Dangles ⟨0⟩ → danglingGraph.Abandons ⟨0⟩ graph')) := by
  have hrun : (instanceInterface ⟨0⟩).run.run danglingGraph =
      (.error ⟨3, 7⟩, ((instanceInterface ⟨0⟩).run.run danglingGraph).2) := rfl
  exact ⟨_, _, hrun, eq_iff_dangles_of_stopped hrun⟩

/-- The request is stopped, but a node has come in addition, and the same request is answered with it from then
on: an interface without base types, for a class that has one. -/
theorem danglingGraph_leavesOpen :
    ((instanceInterface ⟨0⟩).run.run danglingGraph).1 = .error ⟨3, 7⟩ ∧
      ((instanceInterface ⟨0⟩).run.run danglingGraph).2.size ≠ danglingGraph.size ∧
      ((instanceInterface ⟨0⟩).run.run ((instanceInterface ⟨0⟩).run.run danglingGraph).2).1 = .ok (some ⟨2⟩) ∧
      ((instanceInterface ⟨0⟩).run.run danglingGraph).2.node? ⟨2⟩ = some (.form (.interface {})) :=
  ⟨rfl, by decide, rfl, by decide⟩

end TypeEnv.TypeGraph
