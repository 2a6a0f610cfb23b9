import TypeEnv.Proofs.Views.Derived

/-! A derivation that starts at a graph adds nodes, each with an origin of its own, and leaves the
nodes it started from alone. Here the steps that add the node of a view and note it. -/

namespace TypeEnv

/-- The table with a view noted under its source; references are not noted. -/
def ViewTable.note (views : ViewTable) (view : TypeId) : Origin → ViewTable
  | .classInstance source => { views with instances := views.instances.insert source view }
  | .interfacePart source => { views with interfaceParts := views.interfaceParts.insert source view }
  | .instanceInterface source =>
    { views with instanceInterfaces := views.instanceInterfaces.insert source view }
  | .baseReference .. => views

/-- The class whose view is open after a view of this origin was added. -/
def Origin.opens : Origin → List TypeId
  | .instanceInterface source => [source]
  | _ => []

namespace TypeGraph

variable (graph : TypeGraph)

/-- The handle of the next node. -/
def next : TypeId := ⟨graph.size.toUInt32⟩

def withView (o : Origin) (node : Node) : TypeGraph :=
  { graph with nodes := graph.nodes.push node, views := graph.views.note graph.next o }

/-- `node` is what is added for the view `o`. -/
inductive Adds : Origin → Node → Prop where
  | classInstance {source} : (graph.class? source).isSome →
    Adds (.classInstance source) (.form (.classInstance source))
  | interfacePart {source shape target typeArguments} :
    graph.node? source = some (.form (.generic shape target typeArguments)) →
    Adds (.interfacePart source) (.form (.interface shape))
  | instanceInterface {source form} : graph.class? source = some form →
    Adds (.instanceInterface source) (.form (.interface (openInterface form)))

/-- From `start`, nodes have been derived; the views of `opened` are not filled in. -/
structure Derives (start graph : TypeGraph) (opened : List TypeId) : Prop where
  viewed : graph.Viewed opened
  size_le : start.size ≤ graph.size
  node : ∀ t, start.Contains t → graph.node? t = start.node? t
  kept : ∀ o t, start.Derived o t → graph.Derived o t
  fresh : ∀ o t, graph.Derived o t → start.Derived o t ∨ start.size ≤ t.val.toNat
  accounted : ∀ k, start.size ≤ k → k < graph.size → ∃ o, graph.Derived o ⟨k.toUInt32⟩
  signatures : graph.signatures = start.signatures
  registry : graph.registry = start.registry

variable {graph} {start : TypeGraph} {opened : List TypeId}

theorem Derives.refl (h : graph.Viewed opened) : graph.Derives graph opened where
  viewed := h
  size_le := Nat.le_refl _
  node _ _ := rfl
  kept _ _ ht := ht
  fresh _ _ ht := .inl ht
  accounted _ hk hk' := absurd hk (Nat.not_le.2 hk')
  signatures := rfl
  registry := rfl

/-- Whatever is derived is no class, so the classes are those of the start. -/
theorem Derives.class? (h : start.Derives graph opened) (t : TypeId) : graph.class? t = start.class? t := by
  by_cases ht : start.Contains t
  · rw [TypeGraph.class?, h.node t ht, TypeGraph.class?]
  · rw [class?_eq_none_of_not_contains ht]
    by_cases ht' : graph.Contains t
    · obtain ⟨o, ho⟩ := h.accounted t.val.toNat (Nat.not_lt.1 ht) ht'
      obtain ⟨node, hnode, hclass, -⟩ := h.viewed.node_of_derived ho
      rw [TypeId.word_eq] at hnode
      rw [TypeGraph.class?, hnode]
      exact hclass
    · exact class?_eq_none_of_not_contains ht'

theorem Derives.trans {later : TypeGraph} {opened' : List TypeId} (h : start.Derives graph opened)
    (h' : graph.Derives later opened') : start.Derives later opened' where
  viewed := h'.viewed
  size_le := Nat.le_trans h.size_le h'.size_le
  node t ht := (h'.node t (Nat.lt_of_lt_of_le ht h.size_le)).trans (h.node t ht)
  kept o t ht := h'.kept o t (h.kept o t ht)
  fresh o t ht := (h'.fresh o t ht).elim (h.fresh o t) fun ht => .inr (Nat.le_trans h.size_le ht)
  accounted k hk hk' :=
    (Nat.lt_or_ge k graph.size).elim (fun hlt => (h.accounted k hk hlt).imp fun o => h'.kept o _)
      fun hge => h'.accounted k hge hk'
  signatures := h'.signatures.trans h.signatures
  registry := h'.registry.trans h.registry

theorem Derives.classBehind? (h : start.Derives graph opened) {base : TypeId}
    (hbase : start.Contains base) : graph.classBehind? base = start.classBehind? base := by
  simp only [TypeGraph.classBehind?, h.node base hbase, h.class?]

theorem Derives.extends_iff (h : start.Derives graph opened) (hrange : start.InRange) {d e : TypeId} :
    graph.Extends d e ↔ start.Extends d e := by
  simp only [Extends, h.class?]
  refine exists_congr fun form => and_congr_right fun hform => exists_congr fun base =>
    and_congr_right fun hbase => ?_
  rw [h.classBehind? (hrange.contains_baseType hform hbase)]

theorem Derives.referencesClass (h : start.Derives graph opened) {base : TypeId}
    (hbase : start.Contains base) : graph.ReferencesClass base ↔ start.ReferencesClass base := by
  simp only [ReferencesClass, h.node base hbase, h.class?]

theorem Derives.inherits_iff (h : start.Derives graph opened) (hrange : start.InRange) {d e : TypeId} :
    graph.Inherits d e ↔ start.Inherits d e := by
  have heq : graph.Extends = start.Extends := by
    funext d e
    exact propext (h.extends_iff hrange)
  rw [Inherits, Inherits, heq]

/-- What is derived is not generic either. -/
theorem Derives.generic_iff (h : start.Derives graph opened) {t target : TypeId}
    {shape : Shape TypeId SignatureId} {typeArguments : List TypeId} :
    graph.node? t = some (.form (.generic shape target typeArguments)) ↔
      start.node? t = some (.form (.generic shape target typeArguments)) := by
  by_cases ht : start.Contains t
  · rw [h.node t ht]
  · rw [node?_eq_none.2 ht]
    refine iff_of_false (fun hnode => ?_) nofun
    obtain ⟨o, ho⟩ := h.accounted t.val.toNat (Nat.not_lt.1 ht) (contains_of_node? hnode)
    rw [TypeId.word_eq] at ho
    obtain ⟨node, hnode', -, hne⟩ := h.viewed.node_of_derived ho
    exact hne _ _ _ (Option.some.inj (hnode'.symm.trans hnode))

theorem Derives.of_mem_iff {opened' : List TypeId} (h : start.Derives graph opened)
    (hmem : ∀ d, d ∈ opened ↔ d ∈ opened') : start.Derives graph opened' :=
  { h with viewed := { h.viewed with
      filled := fun d v hv hd => h.viewed.filled d v hv (mt (hmem d).1 hd)
      opened := fun d v hv hd => h.viewed.opened d v hv ((hmem d).2 hd) } }

/-! ### Adding a view -/

section Add

variable {o : Origin} {node : Node}

theorem getElem?_insert_iff {table : Std.TreeMap TypeId TypeId} {source source' view t : TypeId}
    (hfree : table[source]? = none) : (table.insert source view)[source']? = some t ↔
      table[source']? = some t ∨ source' = source ∧ t = view := by
  rw [Std.TreeMap.getElem?_insert]
  split
  · next heq =>
    obtain rfl := Std.LawfulEqOrd.eq_of_compare heq
    simp [hfree, eq_comm]
  · next hne =>
    have hne' : source' ≠ source := fun heq => hne (by simp [heq])
    simp [hne']

theorem size_withView : (graph.withView o node).size = graph.size + 1 := by
  simp [withView, size]

theorem node?_withView {t : TypeId} (ht : graph.Contains t) :
    (graph.withView o node).node? t = graph.node? t := by
  rw [Contains, size] at ht
  simp only [node?, withView, Array.getElem?_push]
  rw [if_neg (by omega)]

theorem interfaceOf?_withView {d : TypeId} : (graph.withView o node).interfaceOf? d =
    if o = .instanceInterface d then some graph.next else graph.interfaceOf? d := by
  cases o with
  | classInstance | interfacePart | baseReference => rfl
  | instanceInterface source =>
    simp [interfaceOf?, withView, ViewTable.note, Std.TreeMap.getElem?_insert,
      Std.LawfulEqCmp.compare_eq_iff_eq]

variable (hsize : graph.size < 0x100000000)

include hsize

theorem toNat_next : graph.next.val.toNat = graph.size :=
  toNat_toUInt32 hsize

theorem not_contains_next : ¬ graph.Contains graph.next := by
  simp [Contains, toNat_next hsize]

theorem node?_next : (graph.withView o node).node? graph.next = some node := by
  rw [node?, toNat_next hsize]
  simp [withView, size]

theorem contains_withView {t : TypeId} :
    (graph.withView o node).Contains t ↔ graph.Contains t ∨ t = graph.next := by
  rw [Contains, Contains, size_withView, Nat.lt_succ_iff_lt_or_eq]
  refine or_congr_right ⟨fun h => TypeId.eq_of_toNat_eq (by rw [h, toNat_next hsize]), ?_⟩
  rintro rfl
  exact toNat_next hsize

variable (hviewed : graph.Viewed opened) (hadds : graph.Adds o node)

omit hsize in
include hviewed hadds in
theorem Adds.contains {t : TypeId} (ht : t ∈ node.typeRefs) : graph.Contains t := by
  cases hadds with
  | classInstance hclass =>
    obtain ⟨form, hform⟩ := Option.isSome_iff_exists.1 hclass
    obtain rfl : t = _ := by simpa [Node.typeRefs, TypeForm.typeRefs, TypeForm.references] using ht
    exact contains_of_class? hform
  | interfacePart hnode => exact hviewed.in_range.contains_part hnode ht
  | instanceInterface hform => exact hviewed.in_range.contains_openInterface hform ht

omit hsize in
include hadds in
theorem grows_withView (hfree : ∀ t, ¬ graph.Derived o t) : graph.Grows (graph.withView o node) where
  node t node' hnode := by
    rw [node?_withView (contains_of_node? hnode)]
    exact .inl hnode
  interface d v hv := by
    cases hadds with
    | classInstance | interfacePart => exact hv
    | @instanceInterface source =>
      have hnone : graph.interfaceOf? source = none :=
        Option.eq_none_iff_forall_ne_some.2 fun t ht => hfree t (.instanceInterface ht)
      exact (getElem?_insert_iff hnone).2 (.inl hv)

include hviewed hadds in
/-- No reference of an earlier view changes, and the view that was added has none yet. -/
theorem derived_baseReference_withView (hfree : ∀ t, ¬ graph.Derived o t) {d t : TypeId}
    {position : Nat} : (graph.withView o node).Derived (.baseReference d position) t ↔
      graph.Derived (.baseReference d position) t := by
  have hgrows := grows_withView hadds hfree
  by_cases ho : o = .instanceInterface d
  · have hview : (graph.withView o node).interfaceOf? d = some graph.next := by
      rw [interfaceOf?_withView, if_pos ho]
    subst ho
    obtain _ | _ | hform := hadds
    constructor
    · rintro (_ | _ | _ | ⟨_, hv, hnode, _, _, hposition⟩)
      obtain rfl := Option.some.inj (hv.symm.trans hview)
      rw [node?_next hsize] at hnode
      cases hnode
      simp [openInterface] at hposition
    · rintro (_ | _ | _ | ⟨_, hv, _, _, _, _⟩)
      exact absurd (Derived.instanceInterface hv) (hfree _)
  · refine hviewed.derived_baseReference hgrows ?_ fun v hv => node?_withView ?_
    · rw [interfaceOf?_withView, if_neg ho]
    · exact hviewed.contains_of_derived (.instanceInterface hv)

include hviewed hadds in
/-- A view is only added for an origin that has no node, and no other origin gains one. -/
theorem derived_withView (hfree : ∀ t, ¬ graph.Derived o t) {o' : Origin} {t : TypeId} :
    (graph.withView o node).Derived o' t ↔ graph.Derived o' t ∨ o' = o ∧ t = graph.next := by
  cases o' with
  | baseReference d position =>
    rw [derived_baseReference_withView hsize hviewed hadds hfree]
    refine (or_iff_left ?_).symm
    rintro ⟨rfl, -⟩
    cases hadds
  | classInstance source' =>
    cases hadds with
    | classInstance =>
      simp only [derived_classInstance] at hfree ⊢
      exact (getElem?_insert_iff (Option.eq_none_iff_forall_ne_some.2 hfree)).trans (by simp)
    | interfacePart | instanceInterface => simp [withView, ViewTable.note]
  | interfacePart source' =>
    cases hadds with
    | interfacePart =>
      simp only [derived_interfacePart] at hfree ⊢
      exact (getElem?_insert_iff (Option.eq_none_iff_forall_ne_some.2 hfree)).trans (by simp)
    | classInstance | instanceInterface => simp [withView, ViewTable.note]
  | instanceInterface source' =>
    cases hadds with
    | instanceInterface =>
      simp only [derived_instanceInterface] at hfree ⊢
      exact (getElem?_insert_iff (Option.eq_none_iff_forall_ne_some.2 hfree)).trans
        (by simp [interfaceOf?])
    | classInstance | interfacePart => simp [withView, ViewTable.note, interfaceOf?]

theorem inRange_withView (hrange : graph.InRange) (hcontains : ∀ t ∈ node.typeRefs, graph.Contains t) :
    (graph.withView o node).InRange := by
  intro node' hnode' t ht
  refine (contains_withView hsize).2 (.inl ?_)
  rcases Array.mem_push.1 hnode' with hnode' | rfl
  · exact hrange node' hnode' t ht
  · exact hcontains t ht

include hviewed hadds in
theorem distinct_withView (hfree : ∀ t, ¬ graph.Derived o t) {o₁ o₂ : Origin} {t : TypeId}
    (h₁ : (graph.withView o node).Derived o₁ t) (h₂ : (graph.withView o node).Derived o₂ t) : o₁ = o₂ := by
  have hnext {o'} (ht : graph.Derived o' graph.next) : False :=
    not_contains_next hsize (hviewed.contains_of_derived ht)
  rcases (derived_withView hsize hviewed hadds hfree).1 h₁ with h₁ | ⟨ho₁, ht₁⟩ <;>
    rcases (derived_withView hsize hviewed hadds hfree).1 h₂ with h₂ | ⟨ho₂, ht₂⟩
  · exact hviewed.distinct o₁ o₂ t h₁ h₂
  · exact (hnext (ht₂ ▸ h₁)).elim
  · exact (hnext (ht₁ ▸ h₂)).elim
  · exact ho₁.trans ho₂.symm

include hviewed hadds in
theorem Viewed.withView (hfree : ∀ t, ¬ graph.Derived o t) :
    (graph.withView o node).Viewed (o.opens ++ opened) := by
  have hgrows := grows_withView hadds hfree
  have hderived := @derived_withView _ _ _ _ hsize hviewed hadds hfree
  have hnode := @node?_next graph o node hsize
  have hkeep {t} (ht : graph.Contains t) := @node?_withView graph o node t ht
  refine
    { in_range := inRange_withView hsize hviewed.in_range fun t => hadds.contains hviewed
      instances := ?_, parts := ?_, filled := ?_, opened := ?_
      distinct := fun _ _ _ h₁ h₂ => distinct_withView hsize hviewed hadds hfree h₁ h₂ }
  · intro source v hv
    rcases hderived.1 (.classInstance hv) with hv' | ⟨rfl, rfl⟩
    · rw [hkeep (hviewed.contains_of_derived hv')]
      exact (hviewed.instances source v (derived_classInstance.1 hv')).imp_left hgrows.isSome_class?
    · cases hadds with
      | classInstance hclass => exact ⟨hgrows.isSome_class? hclass, hnode⟩
  · intro source v hv
    rcases hderived.1 (.interfacePart hv) with hv' | ⟨rfl, rfl⟩
    · obtain ⟨shape, target, typeArguments, hsource, hpart⟩ :=
        hviewed.parts source v (derived_interfacePart.1 hv')
      rw [hkeep (contains_of_node? hsource), hkeep (contains_of_node? hpart)]
      exact ⟨shape, target, typeArguments, hsource, hpart⟩
    · cases hadds with
      | interfacePart hsource =>
        rw [hkeep (contains_of_node? hsource)]
        exact ⟨_, _, _, hsource, hnode⟩
  · intro d v hv hd
    rcases hderived.1 (.instanceInterface hv) with hv' | ⟨rfl, rfl⟩
    · obtain ⟨form, shape, hform, hview, hfilled⟩ := hviewed.filled d v
        (derived_instanceInterface.1 hv') (fun hd' => hd (List.mem_append_right _ hd'))
      rw [hkeep (contains_of_node? hview)]
      exact ⟨form, shape, hgrows.class?_eq_some hform, hview,
        hgrows.isInterfaceOf hviewed.in_range hform hfilled⟩
    · exact absurd (List.mem_append_left _ (List.mem_singleton_self d)) hd
  · intro d v hv hd
    rcases hderived.1 (.instanceInterface hv) with hv' | ⟨rfl, rfl⟩
    · have hd' : d ∈ opened := by
        refine (List.mem_append.1 hd).resolve_left fun hopens => hfree v ?_
        cases hadds with
        | classInstance | interfacePart => cases hopens
        | instanceInterface =>
          rw [Origin.opens, List.mem_singleton] at hopens
          exact hopens ▸ hv'
      obtain ⟨form, hform, hview⟩ := hviewed.opened d v (derived_instanceInterface.1 hv') hd'
      rw [hkeep (contains_of_node? hview)]
      exact ⟨form, hgrows.class?_eq_some hform, hview⟩
    · cases hadds with
      | instanceInterface hform => exact ⟨_, hgrows.class?_eq_some hform, hnode⟩

end Add

theorem Derives.withView {o : Origin} {node : Node} (h : start.Derives graph opened)
    (hsize : graph.size < 0x100000000) (hadds : graph.Adds o node)
    (hfree : ∀ t, ¬ graph.Derived o t) :
    start.Derives (graph.withView o node) (o.opens ++ opened) where
  viewed := h.viewed.withView hsize hadds hfree
  size_le := by
    rw [size_withView]
    exact Nat.le_succ_of_le h.size_le
  node t ht := by
    rw [node?_withView (Nat.lt_of_lt_of_le ht h.size_le)]
    exact h.node t ht
  kept o' t ht := (derived_withView hsize h.viewed hadds hfree).2 (.inl (h.kept o' t ht))
  fresh o' t ht := by
    rcases (derived_withView hsize h.viewed hadds hfree).1 ht with ht | ⟨-, rfl⟩
    · exact h.fresh o' t ht
    · rw [toNat_next hsize]
      exact .inr h.size_le
  accounted k hk hk' := by
    rw [size_withView, Nat.lt_succ_iff_lt_or_eq] at hk'
    simp only [derived_withView hsize h.viewed hadds hfree]
    rcases hk' with hk' | rfl
    · obtain ⟨o', ho'⟩ := h.accounted k hk hk'
      exact ⟨o', .inl ho'⟩
    · exact ⟨o, .inr ⟨rfl, rfl⟩⟩
  signatures := h.signatures
  registry := h.registry

end TypeGraph

end TypeEnv
