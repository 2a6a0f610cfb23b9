import TypeEnv.Proofs.Form.Related
import TypeEnv.Proofs.Views.Inheritance

/-! The nodes that views add to a graph. Each was added for one purpose, its origin, and no two origins
share a node; an interface whose base types are not yet filled in is open. A derivation that starts
at `start` adds nodes that all have an origin, and leaves the nodes of `start` alone. -/

namespace TypeEnv

/-- What a node was derived for. -/
inductive Origin where
  | classInstance (source : TypeId)
  | interfacePart (source : TypeId)
  | instanceInterface (source : TypeId)
  /-- The reference at a position of the base types of a view. -/
  | baseReference (source : TypeId) (position : Nat)
  deriving DecidableEq

namespace TypeGraph

variable (graph : TypeGraph)

/-- `b` is what the base type `base` is from the instance side. -/
inductive InstanceSide : TypeId → TypeId → Prop where
  /-- A class has become its view. -/
  | view {base v} : (graph.class? base).isSome → graph.interfaceOf? base = some v →
    InstanceSide base v
  /-- A reference to a class has become a reference to the view of that class. -/
  | reference {base target typeArguments v b} :
    graph.node? base = some (.form (.reference target typeArguments)) →
    (graph.class? target).isSome → graph.interfaceOf? target = some v →
    graph.node? b = some (.form (.reference v typeArguments)) → InstanceSide base b
  | same {base} : graph.classBehind? base = none → InstanceSide base base

/-- `shape` is the interface that instances of the class `form` have. -/
structure IsInterfaceOf (form : ClassForm TypeId SignatureId) (shape : Shape TypeId SignatureId) :
    Prop where
  typeParameters : shape.typeParameters = form.shape.typeParameters
  declaredProperties : shape.declaredProperties = form.instanceProperties
  stringIndex : shape.stringIndex = form.shape.stringIndex
  numberIndex : shape.numberIndex = form.shape.numberIndex
  callSignatures : shape.callSignatures = []
  constructSignatures : shape.constructSignatures = []
  baseTypes : List.Forall₂ graph.InstanceSide form.shape.baseTypes shape.baseTypes

/-- The node was derived for this origin. -/
inductive Derived : Origin → TypeId → Prop where
  | classInstance {source t} :
    graph.views.instances[source]? = some t → Derived (.classInstance source) t
  | interfacePart {source t} :
    graph.views.interfaceParts[source]? = some t → Derived (.interfacePart source) t
  | instanceInterface {source t} :
    graph.interfaceOf? source = some t → Derived (.instanceInterface source) t
  | baseReference {source view form shape t base} {position : Nat} :
    graph.class? source = some form → graph.interfaceOf? source = some view →
    graph.node? view = some (.form (.interface shape)) →
    form.shape.baseTypes[position]? = some base → graph.ReferencesClass base →
    shape.baseTypes[position]? = some t → Derived (.baseReference source position) t

/-- The views of the graph are what they should be, those of the classes `opened` so far without their
base types. -/
structure Viewed (opened : List TypeId) : Prop where
  in_range : graph.InRange
  instances : ∀ (source v : TypeId), graph.views.instances[source]? = some v →
    (graph.class? source).isSome ∧ graph.node? v = some (.form (.classInstance source))
  parts : ∀ (source v : TypeId), graph.views.interfaceParts[source]? = some v →
    ∃ shape target typeArguments, graph.node? source = some (.form (.generic shape target typeArguments)) ∧
      graph.node? v = some (.form (.interface shape))
  filled : ∀ d v, graph.interfaceOf? d = some v → d ∉ opened → ∃ form shape,
    graph.class? d = some form ∧ graph.node? v = some (.form (.interface shape)) ∧
      graph.IsInterfaceOf form shape
  opened : ∀ d v, graph.interfaceOf? d = some v → d ∈ opened → ∃ form,
    graph.class? d = some form ∧ graph.node? v = some (.form (.interface (openInterface form)))
  distinct : ∀ o o' t, graph.Derived o t → graph.Derived o' t → o = o'

variable {graph} {opened : List TypeId}

@[simp] theorem derived_classInstance {source t : TypeId} :
    graph.Derived (.classInstance source) t ↔ graph.views.instances[source]? = some t :=
  ⟨fun | .classInstance h => h, .classInstance⟩

@[simp] theorem derived_interfacePart {source t : TypeId} :
    graph.Derived (.interfacePart source) t ↔ graph.views.interfaceParts[source]? = some t :=
  ⟨fun | .interfacePart h => h, .interfacePart⟩

@[simp] theorem derived_instanceInterface {source t : TypeId} :
    graph.Derived (.instanceInterface source) t ↔ graph.interfaceOf? source = some t :=
  ⟨fun | .instanceInterface h => h, .instanceInterface⟩

/-! ### Base types from the instance side -/

theorem classBehind?_of_class? {base : TypeId} (h : (graph.class? base).isSome) :
    graph.classBehind? base = some base := by
  obtain ⟨form, hform⟩ := Option.isSome_iff_exists.1 h
  rw [classBehind?, class?_eq_some.1 hform]

theorem classBehind?_of_reference {base target : TypeId} {typeArguments : List TypeId}
    (hnode : graph.node? base = some (.form (.reference target typeArguments))) :
    graph.classBehind? base = (graph.class? target).map fun _ => target := by
  rw [classBehind?, hnode]

theorem class?_of_reference {base target : TypeId} {typeArguments : List TypeId}
    (hnode : graph.node? base = some (.form (.reference target typeArguments))) :
    graph.class? base = none := by
  rw [class?, hnode]
  rfl

namespace InstanceSide

variable {base b target : TypeId} {typeArguments : List TypeId} (h : graph.InstanceSide base b)

include h

theorem eq_of_class (hclass : (graph.class? base).isSome) : graph.interfaceOf? base = some b := by
  cases h with
  | view _ hv => exact hv
  | reference hnode => simp [class?_of_reference hnode] at hclass
  | same hnone => simp [classBehind?_of_class? hclass] at hnone

theorem eq_of_reference (hnode : graph.node? base = some (.form (.reference target typeArguments)))
    (hclass : (graph.class? target).isSome) : ∃ v, graph.interfaceOf? target = some v ∧
      graph.node? b = some (.form (.reference v typeArguments)) := by
  cases h with
  | view hbase => simp [class?_of_reference hnode] at hbase
  | @reference _ _ v _ hnode' _ hv hb =>
    obtain ⟨rfl, rfl⟩ : _ = target ∧ _ = typeArguments := by simpa using hnode'.symm.trans hnode
    exact ⟨v, hv, hb⟩
  | same hnone =>
    obtain ⟨form, hform⟩ := Option.isSome_iff_exists.1 hclass
    simp [classBehind?_of_reference hnode, hform] at hnone

theorem eq_of_classBehind? (hnone : graph.classBehind? base = none) : b = base := by
  cases h with
  | view hclass => simp [classBehind?_of_class? hclass] at hnone
  | reference hnode hclass =>
    obtain ⟨form, hform⟩ := Option.isSome_iff_exists.1 hclass
    simp [classBehind?_of_reference hnode, hform] at hnone
  | same => rfl

end InstanceSide

/-- What an open interface refers to, its class does. -/
theorem mem_typeRefs_of_openInterface {form : ClassForm TypeId SignatureId} {u : TypeId}
    (hu : u ∈ (Node.form (.interface (openInterface form))).typeRefs) :
    u ∈ (Node.form (.classDeclaration form)).typeRefs := by
  rw [mem_typeRefs_class, mem_typeRefs_interface]
  rw [mem_typeRefs_interface] at hu
  simp only [openInterface, List.not_mem_nil, false_or] at hu
  tauto

/-- What the interface part of a generic type refers to, the generic type does. -/
theorem mem_typeRefs_of_part {shape : Shape TypeId SignatureId} {u target : TypeId}
    {typeArguments : List TypeId} (hu : u ∈ (Node.form (.interface shape)).typeRefs) :
    u ∈ (Node.form (.generic shape target typeArguments)).typeRefs := by
  rw [mem_typeRefs_interface] at hu
  simpa [Node.typeRefs, TypeForm.typeRefs, TypeForm.references, Shape.references, or_assoc] using
    hu.imp_right (.imp_right (.imp_right (.imp_right .inl)))

theorem InRange.contains_openInterface (hrange : graph.InRange) {t u : TypeId}
    {form : ClassForm TypeId SignatureId} (hform : graph.class? t = some form)
    (hu : u ∈ (Node.form (.interface (openInterface form))).typeRefs) : graph.Contains u :=
  hrange.contains (class?_eq_some.1 hform) (mem_typeRefs_of_openInterface hu)

theorem InRange.contains_part (hrange : graph.InRange) {t u target : TypeId}
    {shape : Shape TypeId SignatureId} {typeArguments : List TypeId}
    (hnode : graph.node? t = some (.form (.generic shape target typeArguments)))
    (hu : u ∈ (Node.form (.interface shape)).typeRefs) : graph.Contains u :=
  hrange.contains hnode (mem_typeRefs_of_part hu)

theorem IsInterfaceOf.eq {form : ClassForm TypeId SignatureId} {shape : Shape TypeId SignatureId}
    (h : graph.IsInterfaceOf form shape) : shape = { openInterface form with baseTypes := shape.baseTypes } := by
  obtain ⟨h₁, h₂, h₃, h₄, h₅, h₆, -⟩ := h
  cases shape
  simp_all [openInterface]

namespace Viewed

variable (h : graph.Viewed opened)

include h

theorem view {d v : TypeId} (hv : graph.interfaceOf? d = some v) : ∃ form shape,
    graph.class? d = some form ∧ graph.node? v = some (.form (.interface shape)) := by
  by_cases hd : d ∈ opened
  · obtain ⟨form, hform, hnode⟩ := h.opened d v hv hd
    exact ⟨form, _, hform, hnode⟩
  · obtain ⟨form, shape, hform, hnode, -⟩ := h.filled d v hv hd
    exact ⟨form, shape, hform, hnode⟩

/-- Open views have no base types, so references stand in views that are filled in. -/
theorem not_mem_opened {d t : TypeId} {position : Nat}
    (ht : graph.Derived (.baseReference d position) t) : d ∉ opened := by
  intro hd
  obtain _ | _ | _ | ⟨-, hv, hnode, -, -, hposition⟩ := ht
  obtain ⟨form, -, hnode'⟩ := h.opened d _ hv hd
  obtain rfl : _ = openInterface form := by simpa using hnode.symm.trans hnode'
  simp [openInterface] at hposition

/-- A reference that was made is one to the view of the class that the base type refers to. -/
theorem reference_of_derived {d t : TypeId} {position : Nat}
    (ht : graph.Derived (.baseReference d position) t) : ∃ form base target typeArguments v,
      graph.class? d = some form ∧ form.shape.baseTypes[position]? = some base ∧
      graph.node? base = some (.form (.reference target typeArguments)) ∧
      graph.interfaceOf? target = some v ∧ graph.node? t = some (.form (.reference v typeArguments)) := by
  have hopened := h.not_mem_opened ht
  obtain _ | _ | _ | ⟨hform, hv, hnode, hbase, ⟨target, typeArguments, href, hclass⟩, hposition⟩ := ht
  obtain ⟨form', shape', hform', hnode', hview⟩ := h.filled d _ hv hopened
  obtain rfl := Option.some.inj (hform.symm.trans hform')
  obtain rfl : _ = shape' := by simpa using hnode.symm.trans hnode'
  have hside := getElem?_of_forall₂ hview.baseTypes hbase hposition
  obtain ⟨v, hv, hnode⟩ := hside.eq_of_reference href hclass
  exact ⟨_, _, target, typeArguments, v, hform, hbase, href, hv, hnode⟩

/-- A node that was derived is neither a class nor generic. -/
theorem node_of_derived {o : Origin} {t : TypeId} (ht : graph.Derived o t) :
    ∃ node, graph.node? t = some node ∧ node.class? = none ∧
      ∀ shape target typeArguments, node ≠ .form (.generic shape target typeArguments) := by
  cases o with
  | classInstance => exact ⟨_, (h.instances _ _ (derived_classInstance.1 ht)).2, rfl, nofun⟩
  | interfacePart =>
    obtain ⟨shape, _, _, -, hnode⟩ := h.parts _ _ (derived_interfacePart.1 ht)
    exact ⟨_, hnode, rfl, nofun⟩
  | instanceInterface =>
    obtain ⟨form, shape, -, hnode⟩ := h.view (derived_instanceInterface.1 ht)
    exact ⟨_, hnode, rfl, nofun⟩
  | baseReference =>
    obtain ⟨_, _, _, _, _, -, -, -, -, hnode⟩ := h.reference_of_derived ht
    exact ⟨_, hnode, rfl, nofun⟩

theorem contains_of_derived {o : Origin} {t : TypeId} (ht : graph.Derived o t) :
    graph.Contains t :=
  let ⟨_, hnode, _⟩ := h.node_of_derived ht
  contains_of_node? hnode

theorem contains_side {base b : TypeId} (hbase : graph.Contains base) (hside : graph.InstanceSide base b) :
    graph.Contains b := by
  cases hside with
  | view _ hv => exact h.contains_of_derived (.instanceInterface hv)
  | reference _ _ _ hb => exact contains_of_node? hb
  | same => exact hbase

omit h in
/-- Where all views are filled in, the classes that a class with a view inherits from have one. -/
theorem closed (h : graph.Viewed []) {d e : TypeId} (hd : (graph.interfaceOf? d).isSome)
    (hextends : graph.Extends d e) : (graph.interfaceOf? e).isSome := by
  obtain ⟨v, hv⟩ := Option.isSome_iff_exists.1 hd
  obtain ⟨form, hform, base, hbase, he⟩ := hextends
  obtain ⟨form', shape, hform', -, hview⟩ := h.filled d v hv List.not_mem_nil
  obtain rfl := Option.some.inj (hform.symm.trans hform')
  obtain ⟨b, -, hside⟩ := exists_of_forall₂ hview.baseTypes.flip hbase
  cases hside with
  | view hclass hv =>
    obtain rfl := Option.some.inj ((classBehind?_of_class? hclass).symm.trans he)
    rw [hv]
    rfl
  | reference hnode _ hv =>
    obtain ⟨_, -, rfl⟩ := Option.map_eq_some_iff.1 ((classBehind?_of_reference hnode).symm.trans he)
    rw [hv]
    rfl
  | same hnone => cases hnone.symm.trans he

end Viewed

/-! ### Growing

Views only grow, and no node but an open interface is ever exchanged. -/

structure Grows (graph graph' : TypeGraph) : Prop where
  node : ∀ t node, graph.node? t = some node → graph'.node? t = some node ∨ ∃ shape shape',
    node = .form (.interface shape) ∧ graph'.node? t = some (.form (.interface shape'))
  interface : ∀ d v, graph.interfaceOf? d = some v → graph'.interfaceOf? d = some v

namespace Grows

variable {graph' : TypeGraph} (h : graph.Grows graph')

include h

theorem class? {t : TypeId} (ht : graph.Contains t) : graph'.class? t = graph.class? t := by
  obtain ⟨node, hnode⟩ := exists_node_of_contains ht
  rw [TypeGraph.class?, TypeGraph.class?, hnode]
  rcases h.node t node hnode with hnode' | ⟨shape, shape', rfl, hnode'⟩
  · rw [hnode']
  · rw [hnode']
    rfl

theorem class?_eq_some {t : TypeId} {form : ClassForm TypeId SignatureId}
    (hform : graph.class? t = some form) : graph'.class? t = some form :=
  (h.class? (contains_of_class? hform)).trans hform

theorem isSome_class? {t : TypeId} (hclass : (graph.class? t).isSome) : (graph'.class? t).isSome := by
  obtain ⟨form, hform⟩ := Option.isSome_iff_exists.1 hclass
  rw [h.class?_eq_some hform]
  rfl

theorem reference {t target : TypeId} {typeArguments : List TypeId}
    (hnode : graph.node? t = some (.form (.reference target typeArguments))) :
    graph'.node? t = some (.form (.reference target typeArguments)) := by
  rcases h.node t _ hnode with hnode' | ⟨_, _, heq, -⟩
  · exact hnode'
  · cases heq

variable (hrange : graph.InRange)

include hrange

theorem classBehind? {t : TypeId} (ht : graph.Contains t) :
    graph'.classBehind? t = graph.classBehind? t := by
  obtain ⟨node, hnode⟩ := exists_node_of_contains ht
  rcases h.node t node hnode with hnode' | ⟨shape, shape', rfl, hnode'⟩
  · rcases node with form | record
    · cases form with
      | reference target typeArguments =>
        rw [classBehind?_of_reference hnode, classBehind?_of_reference hnode',
          h.class? (hrange.contains_target hnode)]
      | _ => simp only [TypeGraph.classBehind?, hnode, hnode']
    · simp only [TypeGraph.classBehind?, hnode, hnode']
  · simp only [TypeGraph.classBehind?, hnode, hnode']

theorem instanceSide {base b : TypeId} (hbase : graph.Contains base)
    (hside : graph.InstanceSide base b) : graph'.InstanceSide base b := by
  cases hside with
  | view hclass hv => exact .view (h.isSome_class? hclass) (h.interface _ _ hv)
  | reference hnode hclass hv hb =>
    exact .reference (h.reference hnode) (h.isSome_class? hclass) (h.interface _ _ hv) (h.reference hb)
  | same hnone => exact .same (by rwa [h.classBehind? hrange hbase])

theorem instanceSides {bases sides : List TypeId} (hbases : ∀ base ∈ bases, graph.Contains base)
    (hsides : List.Forall₂ graph.InstanceSide bases sides) :
    List.Forall₂ graph'.InstanceSide bases sides := by
  induction hsides with
  | nil => exact .nil
  | cons hside _ ih =>
    obtain ⟨hbase, hbases⟩ := List.forall_mem_cons.1 hbases
    exact .cons (h.instanceSide hrange hbase hside) (ih hbases)

theorem isInterfaceOf {d : TypeId} {form : ClassForm TypeId SignatureId}
    {shape : Shape TypeId SignatureId} (hform : graph.class? d = some form)
    (hview : graph.IsInterfaceOf form shape) : graph'.IsInterfaceOf form shape :=
  { hview with baseTypes :=
      h.instanceSides hrange (fun _ => hrange.contains_baseType hform) hview.baseTypes }

theorem referencesClass {base : TypeId} (hbase : graph.Contains base) :
    graph'.ReferencesClass base ↔ graph.ReferencesClass base := by
  obtain ⟨node, hnode⟩ := exists_node_of_contains hbase
  rcases h.node base node hnode with hnode' | ⟨shape, shape', rfl, hnode'⟩
  · simp only [ReferencesClass, hnode, hnode']
    refine exists_congr fun target => exists_congr fun typeArguments => and_congr_right ?_
    rintro ⟨⟩
    rw [h.class? (hrange.contains_target hnode)]
  · simp [ReferencesClass, hnode, hnode']

end Grows

/-- References in a view stay what they are as long as the view stays. -/
theorem Viewed.derived_baseReference (h : graph.Viewed opened) {graph' : TypeGraph}
    (hgrows : graph.Grows graph') {d t : TypeId} {position : Nat}
    (hinterface : graph'.interfaceOf? d = graph.interfaceOf? d)
    (hnode : ∀ v, graph.interfaceOf? d = some v → graph'.node? v = graph.node? v) :
    graph'.Derived (.baseReference d position) t ↔ graph.Derived (.baseReference d position) t := by
  have hcontains : ∀ {form base}, graph.class? d = some form →
      form.shape.baseTypes[position]? = some base → graph.Contains base :=
    fun hform hbase => h.in_range.contains_baseType hform (List.mem_of_getElem? hbase)
  constructor
  · rintro (_ | _ | _ | ⟨hform, hv, hview, hbase, href, hposition⟩)
    rw [hinterface] at hv
    obtain ⟨form', -, hform', -⟩ := h.view hv
    obtain rfl := Option.some.inj (hform.symm.trans (hgrows.class?_eq_some hform'))
    rw [hnode _ hv] at hview
    rw [hgrows.referencesClass h.in_range (hcontains hform' hbase)] at href
    exact .baseReference hform' hv hview hbase href hposition
  · rintro (_ | _ | _ | ⟨hform, hv, hview, hbase, href, hposition⟩)
    refine .baseReference (hgrows.class?_eq_some hform) (by rwa [hinterface]) (by rwa [hnode _ hv])
      hbase ?_ hposition
    rwa [hgrows.referencesClass h.in_range (hcontains hform hbase)]

/-- More nodes, and the same views. -/
structure AddsNodes (graph graph' : TypeGraph) : Prop where
  size_le : graph.size ≤ graph'.size
  node : ∀ t, graph.Contains t → graph'.node? t = graph.node? t
  views : graph'.views = graph.views

namespace AddsNodes

variable {graph' : TypeGraph} (h : graph.AddsNodes graph')

include h

theorem interfaceOf? (d : TypeId) : graph'.interfaceOf? d = graph.interfaceOf? d := by
  rw [TypeGraph.interfaceOf?, h.views]
  rfl

theorem grows : graph.Grows graph' where
  node t node hnode := by
    rw [h.node t (contains_of_node? hnode)]
    exact .inl hnode
  interface d v hv := by rwa [h.interfaceOf?]

theorem contains {t : TypeId} (ht : graph.Contains t) : graph'.Contains t :=
  Nat.lt_of_lt_of_le ht h.size_le

variable (hviewed : graph.Viewed opened)

include hviewed

theorem derived {o : Origin} {t : TypeId} : graph'.Derived o t ↔ graph.Derived o t := by
  cases o with
  | classInstance | interfacePart => simp [h.views]
  | instanceInterface => simp [h.interfaceOf?]
  | baseReference d position =>
    exact hviewed.derived_baseReference h.grows (h.interfaceOf? d) fun v hv =>
      h.node v (hviewed.contains_of_derived (.instanceInterface hv))

theorem viewed (hrange : graph'.InRange) : graph'.Viewed opened where
  in_range := hrange
  instances source v hv := by
    rw [h.views] at hv
    rw [h.node v (hviewed.contains_of_derived (.classInstance hv))]
    exact (hviewed.instances source v hv).imp_left h.grows.isSome_class?
  parts source v hv := by
    rw [h.views] at hv
    obtain ⟨shape, target, typeArguments, hsource, hpart⟩ := hviewed.parts source v hv
    rw [h.node source (contains_of_node? hsource), h.node v (contains_of_node? hpart)]
    exact ⟨shape, target, typeArguments, hsource, hpart⟩
  filled d v hv hd := by
    rw [h.interfaceOf?] at hv
    obtain ⟨form, shape, hform, hview, hfilled⟩ := hviewed.filled d v hv hd
    rw [h.node v (contains_of_node? hview)]
    exact ⟨form, shape, h.grows.class?_eq_some hform, hview,
      h.grows.isInterfaceOf hviewed.in_range hform hfilled⟩
  opened d v hv hd := by
    rw [h.interfaceOf?] at hv
    obtain ⟨form, hform, hview⟩ := hviewed.opened d v hv hd
    rw [h.node v (contains_of_node? hview)]
    exact ⟨form, h.grows.class?_eq_some hform, hview⟩
  distinct o o' t ho ho' :=
    hviewed.distinct o o' t ((h.derived hviewed).1 ho) ((h.derived hviewed).1 ho')

end AddsNodes

end TypeGraph

end TypeEnv
