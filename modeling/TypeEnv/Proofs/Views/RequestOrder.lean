import TypeEnv.Proofs.Graph.Isomorphism
import TypeEnv.Proofs.Views.InstanceTypes

/-! The order of requests. Which origins have a node at the end depends on which requests were made, not
on when or how often. Nodes of one origin hold the same references in both graphs, or references of
one origin again, so pairing off the nodes of each origin carries the one graph to the other. -/

namespace TypeEnv

/-- What the view that is asked for is derived for. -/
def ViewRequest.origin : ViewRequest → Origin
  | classInstance source => .classInstance source
  | instanceInterface source => .instanceInterface source
  | interfacePart source => .interfacePart source

namespace TypeGraph

open Stateful

/-- The answers to requests made one after the other. -/
def performAll (requests : List ViewRequest) : Deriving (List (Option TypeId)) :=
  requests.mapM perform

variable {start graph graph₁ graph₂ : TypeGraph}

/-! ### One run -/

theorem derived_origin {request : ViewRequest} {t : TypeId} :
    graph.Derived request.origin t ↔ graph.noted? request = some t := by
  cases request <;> simp [ViewRequest.origin, noted?]

theorem holds_origin {request : ViewRequest} : graph.Holds request.origin ↔ (graph.noted? request).isSome := by
  simp [Holds, derived_origin, Option.isSome_iff_exists]

/-- Only views that requests lead to are noted. -/
theorem Derives.leadsTo_origin (h : start.Derives graph []) {request : ViewRequest} {v : TypeId}
    (hv : graph.noted? request = some v) : start.LeadsTo request request.origin := by
  cases request with
  | classInstance source =>
    exact .classInstance (by rw [← h.class?]; exact (h.viewed.instances source v hv).1)
  | instanceInterface source =>
    obtain ⟨form, -, hform, -⟩ := h.viewed.view hv
    exact .instanceInterface (by rw [← h.class?, hform]; rfl) .refl
  | interfacePart source =>
    obtain ⟨shape, target, typeArguments, hnode, -⟩ := h.viewed.parts source v hv
    exact .interfacePart (h.generic_iff.1 hnode)

/-- An answer, also that there is no such view, stands. -/
theorem Performs.noted?_later {request : ViewRequest} {later : TypeGraph} (h : graph.Performs request graph₁)
    (hlater : graph₁.Derives later []) :
    later.noted? request = graph₁.noted? request := by
  cases hv : graph₁.noted? request with
  | some v => exact derived_origin.1 (hlater.kept _ _ (derived_origin.2 hv))
  | none =>
    refine Option.eq_none_iff_forall_ne_some.2 fun v hlaterv => ?_
    have hleads := (h.derives.trans hlater).leadsTo_origin hlaterv
    simpa [hv] using holds_origin.1 ((h.holds _).2 (.inr hleads))

theorem run_performAll (hrange : start.InRange) (requests : List ViewRequest) : ∀ graph : TypeGraph,
    start.Derives graph [] → ((performAll requests).run.run graph).2.size ≤ 0x100000000 →
    ∃ graph', (performAll requests).run.run graph = (.ok (requests.map graph'.noted?), graph') ∧
      graph.Derives graph' [] ∧
      ∀ o, graph'.Holds o ↔ graph.Holds o ∨ ∃ request ∈ requests, start.LeadsTo request o := by
  induction requests with
  | nil => exact fun graph h _ => ⟨graph, rfl, .refl h.viewed, by simp⟩
  | cons request requests ih =>
    intro graph h hsize
    rw [performAll, List.mapM_cons] at hsize ⊢
    obtain ⟨mid, hperforms⟩ := exists_performs h.viewed request <|
      Nat.le_trans (Enlarges.le_bind _ (fun _ => .bind (.mapM .perform requests) fun _ => .pure _) graph) hsize
    rw [run_bind, hperforms.run] at hsize ⊢
    obtain ⟨graph', hrun, hderives, hholds⟩ := ih mid (h.trans hperforms.derives) <|
      Nat.le_trans (Enlarges.le_bind _ (fun _ => .pure _) mid) hsize
    rw [performAll] at hrun
    refine ⟨graph', ?_, hperforms.derives.trans hderives, fun o => ?_⟩
    · simp only [run_bind, hrun, run_pure, List.map_cons, hperforms.noted?_later hderives]
    · rw [hholds, hperforms.holds, h.leadsTo_iff hrange, or_assoc]
      simp

/-! ### Two runs -/

/-- The handles of one node of the start, or of one origin. -/
def Paired (start graph₁ graph₂ : TypeGraph) (t u : TypeId) : Prop :=
  start.Contains t ∧ u = t ∨ ∃ o, graph₁.Derived o t ∧ graph₂.Derived o u

theorem Paired.symm {t u : TypeId} (h : Paired start graph₁ graph₂ t u) : Paired start graph₂ graph₁ u t := by
  rcases h with ⟨ht, rfl⟩ | ⟨o, ht, hu⟩
  · exact .inl ⟨ht, rfl⟩
  · exact .inr ⟨o, hu, ht⟩

theorem Derived.unique {o : Origin} {t u : TypeId} (ht : graph.Derived o t) (hu : graph.Derived o u) : t = u := by
  cases ht with
  | classInstance ht => exact Option.some.inj (ht.symm.trans (derived_classInstance.1 hu))
  | interfacePart ht => exact Option.some.inj (ht.symm.trans (derived_interfacePart.1 hu))
  | instanceInterface ht => exact Option.some.inj (ht.symm.trans (derived_instanceInterface.1 hu))
  | baseReference _ hv hnode _ _ ht =>
    obtain _ | _ | _ | ⟨-, hv', hnode', -, -, hu⟩ := hu
    obtain rfl := Option.some.inj (hv.symm.trans hv')
    obtain rfl : _ = _ := by simpa using hnode.symm.trans hnode'
    exact Option.some.inj (ht.symm.trans hu)

section Pairs

variable (hviews : start.views = {}) (h₁ : start.Derives graph₁ []) (h₂ : start.Derives graph₂ [])

include hviews h₁

/-- Nodes that were derived came after those of the start. -/
theorem not_contains_of_derived {o : Origin} {t : TypeId} (ht : graph₁.Derived o t) : ¬ start.Contains t :=
  Nat.not_lt.2 ((h₁.fresh o t ht).resolve_left (not_derived_of_empty hviews o t))

theorem Paired.unique {t u u' : TypeId} (hu : Paired start graph₁ graph₂ t u)
    (hu' : Paired start graph₁ graph₂ t u') : u = u' := by
  rcases hu with ⟨ht, rfl⟩ | ⟨o, ht, hu⟩ <;> rcases hu' with ⟨ht', rfl⟩ | ⟨o', ht', hu'⟩
  · rfl
  · exact absurd ht (not_contains_of_derived hviews h₁ ht')
  · exact absurd ht' (not_contains_of_derived hviews h₁ ht)
  · rw [h₁.viewed.distinct o' o t ht' ht] at hu'
    exact hu.unique hu'

omit hviews in
include h₂ in
theorem exists_paired (hholds : ∀ o, graph₁.Holds o → graph₂.Holds o) {t : TypeId} (ht : graph₁.Contains t) :
    ∃ u, graph₂.Contains u ∧ Paired start graph₁ graph₂ t u := by
  by_cases hstart : start.Contains t
  · exact ⟨t, Nat.lt_of_lt_of_le hstart h₂.size_le, .inl ⟨hstart, rfl⟩⟩
  · obtain ⟨o, ho⟩ := h₁.accounted t.val.toNat (Nat.not_lt.1 hstart) ht
    rw [TypeId.word_eq] at ho
    obtain ⟨u, hu⟩ := hholds o ⟨t, ho⟩
    exact ⟨u, h₂.viewed.contains_of_derived hu, .inr ⟨o, ho, hu⟩⟩

omit hviews h₁ in
theorem paired_self {t : TypeId} (ht : start.Contains t) : Paired start graph₁ graph₂ t t := .inl ⟨ht, rfl⟩

omit hviews h₁ in
/-- What refers to nodes of the start only refers to the same in both graphs. -/
theorem related_of_contains {x : TypeForm TypeId SignatureId} (hx : ∀ t ∈ x.typeRefs, start.Contains t) :
    x.Related (Paired start graph₁ graph₂) (· = ·) x :=
  x.related_self.imp_mem (fun t ht _ heq => heq ▸ paired_self (hx t ht)) fun _ _ _ => id

variable (hrange : start.InRange)

include h₂ hrange

omit hviews in
/-- What a base type is from the instance side is paired with what it is in the other graph. -/
theorem paired_side {d v₁ v₂ base b₁ b₂ : TypeId} {position : Nat} {form : ClassForm TypeId SignatureId}
    {shape₁ shape₂ : Shape TypeId SignatureId} (hform : start.class? d = some form)
    (hv₁ : graph₁.interfaceOf? d = some v₁) (hnode₁ : graph₁.node? v₁ = some (.form (.interface shape₁)))
    (hv₂ : graph₂.interfaceOf? d = some v₂) (hnode₂ : graph₂.node? v₂ = some (.form (.interface shape₂)))
    (hbase : form.shape.baseTypes[position]? = some base) (hb₁ : shape₁.baseTypes[position]? = some b₁)
    (hb₂ : shape₂.baseTypes[position]? = some b₂) (hside₁ : graph₁.InstanceSide base b₁)
    (hside₂ : graph₂.InstanceSide base b₂) : Paired start graph₁ graph₂ b₁ b₂ := by
  have hcontains := hrange.contains_baseType hform (List.mem_of_getElem? hbase)
  have hclasses : ∀ t, graph₁.class? t = graph₂.class? t := fun t => (h₁.class? t).trans (h₂.class? t).symm
  have hnodes := (h₁.node base hcontains).trans (h₂.node base hcontains).symm
  cases hside₁ with
  | view hclass hv =>
    rw [hclasses] at hclass
    exact .inr ⟨_, .instanceInterface hv, .instanceInterface (hside₂.eq_of_class hclass)⟩
  | reference hnode hclass hv hb =>
    refine .inr ⟨.baseReference d position, .baseReference ((h₁.class? d).trans hform) hv₁ hnode₁ hbase
      ⟨_, _, hnode, hclass⟩ hb₁, .baseReference ((h₂.class? d).trans hform) hv₂ hnode₂ hbase ?_ hb₂⟩
    exact ⟨_, _, hnodes.symm.trans hnode, by rwa [← hclasses]⟩
  | same hnone =>
    rw [h₁.classBehind? hcontains, ← h₂.classBehind? hcontains] at hnone
    rw [hside₂.eq_of_classBehind? hnone]
    exact paired_self hcontains

omit hviews in
theorem related_interfaces {d v₁ v₂ : TypeId} (hv₁ : graph₁.interfaceOf? d = some v₁)
    (hv₂ : graph₂.interfaceOf? d = some v₂) : ∃ shape₁ shape₂,
      graph₁.node? v₁ = some (.form (.interface shape₁)) ∧
      graph₂.node? v₂ = some (.form (.interface shape₂)) ∧
      shape₁.Related (Paired start graph₁ graph₂) (· = ·) shape₂ := by
  obtain ⟨form, shape₁, hform₁, hnode₁, hview₁⟩ := h₁.viewed.filled d v₁ hv₁ List.not_mem_nil
  obtain ⟨form₂, shape₂, hform₂, hnode₂, hview₂⟩ := h₂.viewed.filled d v₂ hv₂ List.not_mem_nil
  rw [h₁.class?] at hform₁
  rw [h₂.class?] at hform₂
  obtain rfl := Option.some.inj (hform₁.symm.trans hform₂)
  refine ⟨shape₁, shape₂, hnode₁, hnode₂, ?_⟩
  have hopen : (openInterface form).Related (Paired start graph₁ graph₂) (· = ·) (openInterface form) := by
    have h : TypeForm.Related (Paired start graph₁ graph₂) (· = ·) (.interface (openInterface form))
        (.interface (openInterface form)) :=
      related_of_contains fun t ht => hrange.contains_openInterface hform₁ ht
    cases h with
    | interface h => exact h
  have hlength₁ := hview₁.baseTypes.length_eq
  have hlength₂ := hview₂.baseTypes.length_eq
  rw [hview₁.eq, hview₂.eq]
  refine { hopen with baseTypes := List.forall₂_iff_get.2 ⟨hlength₁.symm.trans hlength₂, ?_⟩ }
  intro position hlt hlt'
  have hbase := List.getElem?_eq_getElem (hlength₁.symm ▸ hlt)
  have hb₁ := List.getElem?_eq_getElem hlt
  have hb₂ := List.getElem?_eq_getElem hlt'
  exact paired_side h₁ h₂ hrange hform₁ hv₁ hnode₁ hv₂ hnode₂ hbase hb₁ hb₂
    (getElem?_of_forall₂ hview₁.baseTypes hbase hb₁) (getElem?_of_forall₂ hview₂.baseTypes hbase hb₂)

omit hviews in
/-- Nodes of one origin are the same but for what they refer to, which is paired. -/
theorem related_of_derived {o : Origin} {t u : TypeId} (ht : graph₁.Derived o t) (hu : graph₂.Derived o u) :
    ∃ node node', graph₁.node? t = some node ∧ graph₂.node? u = some node' ∧
      node.Related id (Paired start graph₁ graph₂) (· = ·) node' := by
  cases o with
  | classInstance source =>
    obtain ⟨hclass, hnode₁⟩ := h₁.viewed.instances source t (derived_classInstance.1 ht)
    obtain ⟨-, hnode₂⟩ := h₂.viewed.instances source u (derived_classInstance.1 hu)
    rw [h₁.class?] at hclass
    obtain ⟨form, hform⟩ := Option.isSome_iff_exists.1 hclass
    exact ⟨_, _, hnode₁, hnode₂, .form (.classInstance (paired_self (contains_of_class? hform)))⟩
  | interfacePart source =>
    obtain ⟨shape, target, typeArguments, hsource, hnode₁⟩ :=
      h₁.viewed.parts source t (derived_interfacePart.1 ht)
    obtain ⟨shape₂, target₂, typeArguments₂, hsource₂, hnode₂⟩ :=
      h₂.viewed.parts source u (derived_interfacePart.1 hu)
    rw [h₁.generic_iff] at hsource
    rw [h₂.generic_iff] at hsource₂
    cases hsource.symm.trans hsource₂
    exact ⟨_, _, hnode₁, hnode₂, .form (related_of_contains fun t ht => hrange.contains_part hsource ht)⟩
  | instanceInterface d =>
    obtain ⟨shape₁, shape₂, hnode₁, hnode₂, hrelated⟩ := related_interfaces h₁ h₂ hrange
      (derived_instanceInterface.1 ht) (derived_instanceInterface.1 hu)
    exact ⟨_, _, hnode₁, hnode₂, .form (.interface hrelated)⟩
  | baseReference d position =>
    obtain ⟨form, base, target, typeArguments, v₁, hform₁, hbase₁, href₁, hv₁, hnode₁⟩ :=
      h₁.viewed.reference_of_derived ht
    obtain ⟨form₂, base₂, target₂, typeArguments₂, v₂, hform₂, hbase₂, href₂, hv₂, hnode₂⟩ :=
      h₂.viewed.reference_of_derived hu
    rw [h₁.class?] at hform₁
    rw [h₂.class?] at hform₂
    obtain rfl := Option.some.inj (hform₁.symm.trans hform₂)
    obtain rfl := Option.some.inj (hbase₁.symm.trans hbase₂)
    have hcontains := hrange.contains_baseType hform₁ (List.mem_of_getElem? hbase₁)
    rw [h₁.node base hcontains] at href₁
    rw [h₂.node base hcontains] at href₂
    cases href₁.symm.trans href₂
    refine ⟨_, _, hnode₁, hnode₂, .form (.reference (.inr ⟨_, .instanceInterface hv₁, .instanceInterface hv₂⟩) ?_)⟩
    refine List.forall₂_same.2 fun t ht => paired_self ?_
    exact hrange.contains href₁ (mem_typeRefs_reference.2 (.inr ht))

omit hviews in
theorem Paired.node {t u : TypeId} {node : Node} (h : Paired start graph₁ graph₂ t u)
    (hnode : graph₁.node? t = some node) : ∃ node', graph₂.node? u = some node' ∧
      node.Related id (Paired start graph₁ graph₂) (· = ·) node' := by
  rcases h with ⟨ht, rfl⟩ | ⟨o, ht, hu⟩
  · rw [h₁.node u ht] at hnode
    refine ⟨node, (h₂.node u ht).trans hnode, node.related_self.imp_mem ?_ fun _ _ _ => id⟩
    exact fun t ht _ heq => heq ▸ paired_self (hrange.contains hnode ht)
  · obtain ⟨node₁, node₂, hnode₁, hnode₂, hrelated⟩ := related_of_derived h₁ h₂ hrange ht hu
    obtain rfl := Option.some.inj (hnode₁.symm.trans hnode)
    exact ⟨node₂, hnode₂, hrelated⟩

end Pairs

/-! ### The same requests -/

/-- The same requests, in any order and however often, leave the same graph behind but for the numbers
of the nodes that were made, and get the same answers. -/
structure SameViews (start graph₁ graph₂ : TypeGraph) (f : TypeId → TypeId) : Prop where
  size : graph₁.size = graph₂.size
  carries : CarriesNodes id f id graph₁ graph₂
  fixes : ∀ t, start.Contains t → f t = t
  signatures : graph₁.signatures = graph₂.signatures
  registry : graph₁.registry = graph₂.registry
  noted : ∀ request, graph₂.noted? request = (graph₁.noted? request).map f

theorem exists_sameViews (hviews : start.views = {}) (hrange : start.InRange)
    (h₁ : start.Derives graph₁ []) (h₂ : start.Derives graph₂ [])
    (hsize₁ : graph₁.size ≤ 0x100000000) (hsize₂ : graph₂.size ≤ 0x100000000)
    (hholds : ∀ o, graph₁.Holds o ↔ graph₂.Holds o) : ∃ f, SameViews start graph₁ graph₂ f := by
  have hcarries : ∃ f, CarriesNodes id f id graph₁ graph₂ ∧
      ∀ t, graph₁.Contains t → ∀ u, Paired start graph₁ graph₂ t u ↔ f t = u :=
    exists_carriesNodes (fun t ht => exists_paired h₁ h₂ (fun o => (hholds o).1) ht)
      (fun u hu => (exists_paired h₂ h₁ (fun o => (hholds o).2) hu).imp fun t ht => ⟨ht.1, ht.2.symm⟩)
      (fun t u u' hu hu' => Paired.unique hviews h₁ hu hu')
      (fun t t' u ht ht' => Paired.unique hviews h₂ ht.symm ht'.symm)
      h₁.viewed.in_range (fun t u node h hnode => h.node h₁ h₂ hrange hnode)
  obtain ⟨f, hcarries, hf⟩ := hcarries
  refine ⟨f, hcarries.size_eq hsize₁ hsize₂, hcarries, fun t ht => ?_, h₁.signatures.trans h₂.signatures.symm,
    h₁.registry.trans h₂.registry.symm, fun request => ?_⟩
  · exact (hf t (Nat.lt_of_lt_of_le ht h₁.size_le) t).1 (paired_self ht)
  · cases hv : graph₁.noted? request with
    | some v =>
      have hderived := derived_origin.2 hv
      obtain ⟨u, hu⟩ := (hholds _).1 ⟨v, hderived⟩
      rw [derived_origin.1 hu, Option.map_some,
        (hf v (h₁.viewed.contains_of_derived hderived) u).1 (.inr ⟨_, hderived, hu⟩)]
    | none =>
      refine Option.eq_none_iff_forall_ne_some.2 fun u hu => ?_
      simpa [hv] using holds_origin.1 ((hholds _).2 ⟨u, derived_origin.2 hu⟩)

theorem sameViews_of_performAll (hrange : start.InRange) (hviews : start.views = {})
    {requests₁ requests₂ : List ViewRequest} (hsame : ∀ request, request ∈ requests₁ ↔ request ∈ requests₂)
    (hsize₁ : ((performAll requests₁).run.run start).2.size ≤ 0x100000000)
    (hsize₂ : ((performAll requests₂).run.run start).2.size ≤ 0x100000000) :
    ∃ answers₁ graph₁ answers₂ graph₂ f,
      (performAll requests₁).run.run start = (.ok answers₁, graph₁) ∧
      (performAll requests₂).run.run start = (.ok answers₂, graph₂) ∧
      SameViews start graph₁ graph₂ f ∧
      ∀ (i j : Nat) request, requests₁[i]? = some request → requests₂[j]? = some request →
        ∃ answer, answers₁[i]? = some answer ∧ answers₂[j]? = some (answer.map f) := by
  have hstart : start.Derives start [] := .refl (viewed_of_empty hrange hviews)
  obtain ⟨graph₁, hrun₁, h₁, hholds₁⟩ := run_performAll hrange requests₁ start hstart hsize₁
  obtain ⟨graph₂, hrun₂, h₂, hholds₂⟩ := run_performAll hrange requests₂ start hstart hsize₂
  rw [hrun₁] at hsize₁
  rw [hrun₂] at hsize₂
  obtain ⟨f, hviews⟩ := exists_sameViews hviews hrange h₁ h₂ hsize₁ hsize₂ fun o => by
    simp only [hholds₁, hholds₂, hsame]
  refine ⟨_, graph₁, _, graph₂, f, hrun₁, hrun₂, hviews, fun i j request hi hj => ?_⟩
  exact ⟨graph₁.noted? request, by simp [hi], by simp [hj, hviews.noted]⟩

/-- Requests for views of `circle`; in the other order, the interfaces are made from another class. -/
def circleRequests : List ViewRequest := [.instanceInterface ⟨0⟩, .instanceInterface ⟨2⟩, .classInstance ⟨3⟩]

theorem sameViews_circle : ((performAll circleRequests).run.run circle).2.size = 13 ∧
    ∃ answers₁ graph₁ answers₂ graph₂ f,
      (performAll circleRequests).run.run circle = (.ok answers₁, graph₁) ∧
      (performAll circleRequests.reverse).run.run circle = (.ok answers₂, graph₂) ∧
      SameViews circle graph₁ graph₂ f ∧
      ∀ (i j : Nat) request, circleRequests[i]? = some request → circleRequests.reverse[j]? = some request →
        ∃ answer, answers₁[i]? = some answer ∧ answers₂[j]? = some (answer.map f) := by
  have hsize₁ : ((performAll circleRequests).run.run circle).2.size = 13 := by decide +kernel
  have hsize₂ : ((performAll circleRequests.reverse).run.run circle).2.size = 13 := by decide +kernel
  exact ⟨hsize₁, sameViews_of_performAll inRange_circle rfl (fun _ => List.mem_reverse.symm)
    (by rw [hsize₁]; decide) (by rw [hsize₂]; decide)⟩

end TypeGraph

end TypeEnv
