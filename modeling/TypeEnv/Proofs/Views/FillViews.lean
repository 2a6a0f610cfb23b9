import TypeEnv.Proofs.Views.Derivation
import TypeEnv.Proofs.Views.Steps

/-! Filling in views: the base types of an open view become those of its class, seen from the instance
side. Each reference to a class is given a node of its own, and the view is put back with the list. -/

namespace TypeEnv.TypeGraph

open Stateful

variable {start graph graph' : TypeGraph} {opened : List TypeId}

/-- The class that the base type names, if it names one, has a view. -/
def Covers (graph : TypeGraph) (base : TypeId) : Prop :=
  ∀ e, graph.classBehind? base = some e → ∃ v, graph.interfaceOf? e = some v ∧ graph.Contains v

/-- Position `i` of the base types is a reference to a class, and has become `t`. -/
def ReferenceAt (graph : TypeGraph) (bases sides : List TypeId) (i : Nat) (t : TypeId) : Prop :=
  ∃ base, bases[i]? = some base ∧ graph.ReferencesClass base ∧ sides[i]? = some t

/-- `b` is what `base` became; the graph grew by one node if `base` is a reference to a class. -/
structure Side (graph : TypeGraph) (base b : TypeId) (graph' : TypeGraph) : Prop where
  adds : graph.AddsNodes graph'
  in_range : graph'.InRange
  signatures : graph'.signatures = graph.signatures
  registry : graph'.registry = graph.registry
  side : graph'.InstanceSide base b
  reference : graph.ReferencesClass base →
    graph.size < 0x100000000 ∧ b = graph.next ∧ graph'.size = graph.size + 1
  other : ¬ graph.ReferencesClass base → graph'.size = graph.size

/-- `sides` is what `bases` became; the graph grew by one node for each reference to a class. -/
structure Sides (graph : TypeGraph) (bases sides : List TypeId) (graph' : TypeGraph) : Prop where
  adds : graph.AddsNodes graph'
  in_range : graph'.InRange
  signatures : graph'.signatures = graph.signatures
  registry : graph'.registry = graph.registry
  each : List.Forall₂ graph'.InstanceSide bases sides
  fresh : ∀ i t, graph.ReferenceAt bases sides i t → graph.size ≤ t.val.toNat
  accounted : ∀ k, graph.size ≤ k → k < graph'.size → ∃ i, graph.ReferenceAt bases sides i ⟨k.toUInt32⟩
  distinct : ∀ i j t, graph.ReferenceAt bases sides i t → graph.ReferenceAt bases sides j t → i = j

/-! ### One base type -/

theorem AddsNodes.refl (graph : TypeGraph) : graph.AddsNodes graph :=
  ⟨Nat.le_refl _, fun _ _ => rfl, rfl⟩

theorem AddsNodes.trans {later : TypeGraph} (h : graph.AddsNodes graph') (h' : graph'.AddsNodes later) :
    graph.AddsNodes later where
  size_le := Nat.le_trans h.size_le h'.size_le
  node t ht := (h'.node t (h.contains ht)).trans (h.node t ht)
  views := h'.views.trans h.views

theorem addsNodes_alloc (graph : TypeGraph) (node : Node) : graph.AddsNodes (graph.alloc node).2 where
  size_le := by simp [alloc, size]
  node t ht := by
    rw [Contains, size] at ht
    simp only [node?, alloc, Array.getElem?_push]
    rw [if_neg (by omega)]
  views := rfl

theorem referencesClass_iff {base target : TypeId} {typeArguments : List TypeId}
    (hnode : graph.node? base = some (.form (.reference target typeArguments))) :
    graph.ReferencesClass base ↔ (graph.class? target).isSome := by
  simp [ReferencesClass, hnode]

theorem not_referencesClass {base : TypeId} {node : Node} (hnode : graph.node? base = some node)
    (hne : ∀ target typeArguments, node ≠ .form (.reference target typeArguments)) :
    ¬ graph.ReferencesClass base := by
  rintro ⟨target, typeArguments, href, -⟩
  exact hne _ _ (Option.some.inj (hnode.symm.trans href))

theorem Side.same (hrange : graph.InRange) {base b : TypeId} (hside : graph.InstanceSide base b)
    (hother : ¬ graph.ReferencesClass base) : graph.Side base b graph :=
  ⟨.refl graph, hrange, rfl, rfl, hside, fun href => absurd href hother, fun _ => rfl⟩

theorem Side.newReference (hrange : graph.InRange) (hsize : graph.size < 0x100000000)
    {base target v : TypeId} {typeArguments : List TypeId}
    (hnode : graph.node? base = some (.form (.reference target typeArguments)))
    (hclass : (graph.class? target).isSome) (hv : graph.interfaceOf? target = some v)
    (hview : graph.Contains v) :
    graph.Side base graph.next (graph.alloc (.form (.reference v typeArguments))).2 := by
  have hadds := addsNodes_alloc graph (.form (.reference v typeArguments))
  have href := (referencesClass_iff hnode).2 hclass
  have hnext : (graph.alloc (.form (.reference v typeArguments))).2.node? graph.next =
      some (.form (.reference v typeArguments)) := by
    rw [node?, toNat_next hsize]
    simp [alloc, size]
  refine ⟨hadds, ?_, rfl, rfl, ?_, fun _ => ⟨hsize, rfl, ?_⟩, fun hother => absurd href hother⟩
  · intro node hmem t ht
    refine hadds.contains ?_
    rcases Array.mem_push.1 hmem with hmem | rfl
    · exact hrange node hmem t ht
    · rcases mem_typeRefs_reference.1 ht with rfl | ht
      · exact hview
      · exact hrange.contains hnode (mem_typeRefs_reference.2 (.inr ht))
  · exact .reference (hadds.grows.reference hnode) (hadds.grows.isSome_class? hclass)
      (by rw [hadds.interfaceOf?, hv]) hnext
  · simp [alloc, size]

theorem run_instanceSide (hrange : graph.InRange) {base : TypeId} (hbase : graph.Contains base)
    (hcovers : graph.Covers base) (hsize : ((instanceSide base).run.run graph).2.size ≤ 0x100000000) :
    ∃ b graph', (instanceSide base).run.run graph = (.ok b, graph') ∧ graph.Side base b graph' := by
  obtain ⟨node, hnode⟩ := exists_node_of_contains hbase
  rw [instanceSide, run_bind, run_lookUp graph hnode] at hsize ⊢
  have hsame (hbehind : graph.classBehind? base = none) (hother : ¬ graph.ReferencesClass base) :
      graph.Side base base graph := .same hrange (.same hbehind) hother
  rcases node with form | record
  · cases form with
    | classDeclaration form =>
      have hclass : (graph.class? base).isSome := by simp [class?_eq_some.2 hnode]
      obtain ⟨v, hv, -⟩ := hcovers base (classBehind?_of_class? hclass)
      refine ⟨v, graph, ?_, .same hrange (.view hclass hv) (not_referencesClass hnode (by simp))⟩
      simp only [run_bind, run_instanceInterface?, hv, run_pure, Option.getD_some]
    | reference target typeArguments =>
      obtain ⟨node, htarget⟩ := exists_node_of_contains (hrange.contains_target hnode)
      have hclass : graph.class? target = node.class? := by rw [class?, htarget, Option.bind_some]
      simp only [run_bind, run_lookUp graph htarget, ← hclass] at hsize ⊢
      cases hform : graph.class? target with
      | none =>
        simp only [Option.isSome_none, Bool.false_eq_true, if_false, run_pure]
        refine ⟨base, graph, rfl, hsame ?_ ?_⟩
        · rw [classBehind?_of_reference hnode, hform, Option.map_none]
        · rw [referencesClass_iff hnode, hform]
          simp
      | some form =>
        obtain ⟨v, hv, hview⟩ := hcovers target (by rw [classBehind?_of_reference hnode, hform]; rfl)
        simp only [hform, Option.isSome_some, if_true, run_bind, run_instanceInterface?, hv, run_add] at hsize ⊢
        refine ⟨_, _, rfl, .newReference hrange ?_ hnode (by simp [hform]) hv hview⟩
        exact Nat.lt_of_lt_of_le (by simp [alloc, size]) hsize
    | _ =>
      refine ⟨base, graph, rfl, hsame ?_ (not_referencesClass hnode (by simp))⟩
      rw [classBehind?, hnode]
  · refine ⟨base, graph, rfl, hsame ?_ (not_referencesClass hnode (by simp))⟩
    rw [classBehind?, hnode]

/-! ### All base types of a class -/

theorem Sides.nil (hrange : graph.InRange) : graph.Sides [] [] graph where
  adds := .refl graph
  in_range := hrange
  signatures := rfl
  registry := rfl
  each := .nil
  fresh := by simp [ReferenceAt]
  accounted k hk hk' := absurd hk (Nat.not_le.2 hk')
  distinct := by simp [ReferenceAt]

theorem Sides.cons {later : TypeGraph} {base b : TypeId} {bases sides : List TypeId}
    (hrange : graph.InRange) (hcontains : ∀ u ∈ base :: bases, graph.Contains u)
    (h : graph.Side base b graph') (h' : graph'.Sides bases sides later) :
    graph.Sides (base :: bases) (b :: sides) later := by
  obtain ⟨hbase, hbases⟩ := List.forall_mem_cons.1 hcontains
  have hhead : ∀ t, graph.ReferenceAt (base :: bases) (b :: sides) 0 t ↔
      graph.ReferencesClass base ∧ b = t := by
    intro t
    simp [ReferenceAt]
  have htail : ∀ i t, graph.ReferenceAt (base :: bases) (b :: sides) (i + 1) t ↔
      graph'.ReferenceAt bases sides i t := by
    intro i t
    simp only [ReferenceAt, List.getElem?_cons_succ]
    refine exists_congr fun u => and_congr_right fun hu => and_congr_left' ?_
    exact (h.adds.grows.referencesClass hrange (hbases u (List.mem_of_getElem? hu))).symm
  -- the node of the first position comes before those of the others
  have hnext : ∀ t, graph.ReferencesClass base ∧ b = t → t.val.toNat + 1 = graph'.size := by
    rintro t ⟨href, rfl⟩
    obtain ⟨hsize, rfl, hsize'⟩ := h.reference href
    rw [toNat_next hsize, hsize']
  have hapart : ∀ i t, graph.ReferencesClass base ∧ b = t → ¬ graph'.ReferenceAt bases sides i t := by
    intro i t ht hi
    have := hnext t ht
    have := h'.fresh i t hi
    omega
  refine ⟨h.adds.trans h'.adds, h'.in_range, h'.signatures.trans h.signatures,
    h'.registry.trans h.registry, .cons ?_ h'.each, ?_, ?_, ?_⟩
  · exact h'.adds.grows.instanceSide h.in_range (h.adds.contains hbase) h.side
  · rintro (_ | i) t ht
    · obtain ⟨href, rfl⟩ := (hhead t).1 ht
      obtain ⟨hsize, rfl, -⟩ := h.reference href
      exact Nat.le_of_eq (toNat_next hsize).symm
    · exact Nat.le_trans h.adds.size_le (h'.fresh i t ((htail i t).1 ht))
  · intro k hk hk'
    by_cases hlt : graph'.size ≤ k
    · obtain ⟨i, hi⟩ := h'.accounted k hlt hk'
      exact ⟨i + 1, (htail i _).2 hi⟩
    · have href : graph.ReferencesClass base := by
        by_contra hother
        have := h.other hother
        omega
      obtain ⟨-, hb, hsize'⟩ := h.reference href
      obtain rfl : k = graph.size := by omega
      exact ⟨0, (hhead _).2 ⟨href, hb⟩⟩
  · rintro (_ | i) (_ | j) t hi hj
    · rfl
    · exact absurd ((htail j t).1 hj) (hapart j t ((hhead t).1 hi))
    · exact absurd ((htail i t).1 hi) (hapart i t ((hhead t).1 hj))
    · rw [h'.distinct i j t ((htail i t).1 hi) ((htail j t).1 hj)]

theorem AddsNodes.covers (h : graph.AddsNodes graph') (hrange : graph.InRange) {base : TypeId}
    (hbase : graph.Contains base) (hcovers : graph.Covers base) : graph'.Covers base := by
  intro e he
  obtain ⟨v, hv, hview⟩ := hcovers e ((h.grows.classBehind? hrange hbase).symm.trans he)
  exact ⟨v, (h.interfaceOf? e).trans hv, h.contains hview⟩

theorem run_mapM_instanceSide (bases : List TypeId) : ∀ graph : TypeGraph, graph.InRange →
    (∀ base ∈ bases, graph.Contains base ∧ graph.Covers base) →
    ((bases.mapM instanceSide).run.run graph).2.size ≤ 0x100000000 →
    ∃ sides graph', (bases.mapM instanceSide).run.run graph = (.ok sides, graph') ∧
      graph.Sides bases sides graph' := by
  induction bases with
  | nil => exact fun graph hrange _ _ => ⟨[], graph, rfl, .nil hrange⟩
  | cons base bases ih =>
    intro graph hrange hbases hsize
    obtain ⟨⟨hbase, hcovers⟩, hrest⟩ := List.forall_mem_cons.1 hbases
    rw [List.mapM_cons] at hsize ⊢
    obtain ⟨b, mid, hrun, hside⟩ := run_instanceSide hrange hbase hcovers <|
      Nat.le_trans (Enlarges.le_bind _ (fun b => .bind (.mapM .instanceSide bases) fun _ => .pure _) graph) hsize
    rw [run_bind, hrun] at hsize ⊢
    obtain ⟨sides, graph', hrun', hsides⟩ := ih mid hside.in_range
      (fun u hu => ⟨hside.adds.contains (hrest u hu).1, hside.adds.covers hrange (hrest u hu).1 (hrest u hu).2⟩) <|
      Nat.le_trans (Enlarges.le_bind _ (fun _ => .pure _) mid) hsize
    refine ⟨b :: sides, graph', ?_, .cons hrange (fun u hu => (hbases u hu).1) hside hsides⟩
    simp only [run_bind, hrun', run_pure]

/-! ### One view -/

/-- The graph with an interface in the place of `v`. -/
def fill (graph : TypeGraph) (v : TypeId) (shape : Shape TypeId SignatureId) : TypeGraph :=
  { graph with nodes := graph.nodes.setIfInBounds v.val.toNat (.form (.interface shape)) }

section Fill

variable {v t : TypeId} {shape shape' : Shape TypeId SignatureId}

@[simp] theorem size_fill : (graph.fill v shape).size = graph.size := by
  simp [fill, size]

theorem node?_fill_self (hv : graph.Contains v) :
    (graph.fill v shape).node? v = some (.form (.interface shape)) := by
  rw [Contains, size] at hv
  simp [fill, node?, hv]

theorem node?_fill (hne : t ≠ v) : (graph.fill v shape).node? t = graph.node? t := by
  have hne' : v.val.toNat ≠ t.val.toNat := fun h => hne (TypeId.eq_of_toNat_eq h.symm)
  simp [fill, node?, hne']

theorem grows_fill (hv : graph.node? v = some (.form (.interface shape'))) :
    graph.Grows (graph.fill v shape) where
  node t node hnode := by
    by_cases ht : t = v
    · subst ht
      obtain rfl := Option.some.inj (hnode.symm.trans hv)
      exact .inr ⟨shape', shape, rfl, node?_fill_self (contains_of_node? hv)⟩
    · exact .inl ((node?_fill ht).trans hnode)
  interface _ _ h := h

theorem inRange_fill (hrange : graph.InRange)
    (hshape : ∀ t ∈ (Node.form (.interface shape)).typeRefs, graph.Contains t) :
    (graph.fill v shape).InRange := by
  intro node hnode t ht
  rw [Contains, size_fill]
  rcases Array.mem_or_eq_of_mem_setIfInBounds hnode with hnode | rfl
  · exact hrange node hnode t ht
  · exact hshape t ht

end Fill

section Filled

variable {d v : TypeId} {form : ClassForm TypeId SignatureId} {sides : List TypeId}
  (hviewed : graph.Viewed (d :: opened)) (hd : d ∉ opened) (hv : graph.interfaceOf? d = some v)
  (hform : graph.class? d = some form) (hsides : graph.Sides form.shape.baseTypes sides graph')

include hviewed hv hform

theorem node?_of_opened : graph.node? v = some (.form (.interface (openInterface form))) := by
  obtain ⟨form', hform', hnode⟩ := hviewed.opened d v hv List.mem_cons_self
  obtain rfl := Option.some.inj (hform.symm.trans hform')
  exact hnode

include hsides

theorem grows_filled : graph'.Grows (graph'.fill v { openInterface form with baseTypes := sides }) :=
  grows_fill <| (hsides.adds.node v (hviewed.contains_of_derived (.instanceInterface hv))).trans
    (node?_of_opened hviewed hv hform)

theorem derived_filled {o : Origin} {t : TypeId} :
    (graph'.fill v { openInterface form with baseTypes := sides }).Derived o t ↔ graph.Derived o t ∨
      ∃ i, o = .baseReference d i ∧ graph.ReferenceAt form.shape.baseTypes sides i t := by
  have hgrows := grows_filled hviewed hv hform hsides
  have hmid := hsides.adds.viewed hviewed hsides.in_range
  rw [← hsides.adds.derived hviewed]
  cases o with
  | classInstance | interfacePart | instanceInterface => simp [fill, interfaceOf?]
  | baseReference e i =>
    by_cases he : e = d
    · subst he
      have hnone : ¬ graph'.Derived (.baseReference e i) t :=
        fun ht => hmid.not_mem_opened ht List.mem_cons_self
      have hclass := hgrows.class?_eq_some (hsides.adds.grows.class?_eq_some hform)
      have hself : (graph'.fill v { openInterface form with baseTypes := sides }).node? v =
          some (.form (.interface { openInterface form with baseTypes := sides })) :=
        node?_fill_self (hsides.adds.contains (contains_of_node? (node?_of_opened hviewed hv hform)))
      have href {base} (hbase : form.shape.baseTypes[i]? = some base) :
          (graph'.fill v { openInterface form with baseTypes := sides }).ReferencesClass base ↔
            graph.ReferencesClass base := by
        have hbase := hviewed.in_range.contains_baseType hform (List.mem_of_getElem? hbase)
        rw [hgrows.referencesClass hsides.in_range (hsides.adds.contains hbase),
          hsides.adds.grows.referencesClass hviewed.in_range hbase]
      constructor
      · rintro (_ | _ | _ | ⟨hform', hv', hnode', hbase, href', hposition⟩)
        obtain rfl := Option.some.inj (hclass.symm.trans hform')
        obtain rfl := Option.some.inj (((hsides.adds.interfaceOf? e).trans hv).symm.trans hv')
        obtain rfl : _ = { openInterface form with baseTypes := sides } := by
          simpa using hnode'.symm.trans hself
        exact .inr ⟨i, rfl, _, hbase, (href hbase).1 href', hposition⟩
      · rintro (ht | ⟨_, ⟨⟩, base, hbase, href', hposition⟩)
        · exact absurd ht hnone
        · exact .baseReference hclass ((hsides.adds.interfaceOf? e).trans hv) hself hbase
            ((href hbase).2 href') hposition
    · rw [hmid.derived_baseReference hgrows rfl]
      · refine (or_iff_left ?_).symm
        rintro ⟨_, heq, -⟩
        cases heq
        exact he rfl
      · intro v' hv'
        refine node?_fill fun heq => he ?_
        have := hmid.distinct (.instanceInterface e) (.instanceInterface d) v (heq ▸ .instanceInterface hv')
          (.instanceInterface ((hsides.adds.interfaceOf? d).trans hv))
        exact Origin.instanceInterface.inj this

omit hv in
theorem inRange_filled : (graph'.fill v { openInterface form with baseTypes := sides }).InRange := by
  refine inRange_fill hsides.in_range fun t ht => ?_
  have hopen := fun u hu => hsides.adds.contains (hviewed.in_range.contains_openInterface (u := u) hform hu)
  rw [mem_typeRefs_interface] at ht
  simp only [mem_typeRefs_interface] at hopen
  rcases ht with ht | ht | ht
  · exact hopen t (.inl ht)
  · obtain ⟨base, hbase, hside⟩ := exists_of_forall₂ hsides.each ht
    have hcontains := hsides.adds.contains (hviewed.in_range.contains_baseType hform hbase)
    exact (hsides.adds.viewed hviewed hsides.in_range).contains_side hcontains hside
  · exact hopen t (.inr (.inr ht))

/-- The references that are new are those of the one view, and they are no earlier nodes. -/
theorem distinct_filled {o o' : Origin} {t : TypeId}
    (ho : (graph'.fill v { openInterface form with baseTypes := sides }).Derived o t)
    (ho' : (graph'.fill v { openInterface form with baseTypes := sides }).Derived o' t) : o = o' := by
  have hapart {o i} (ho : graph.Derived o t) (hi : graph.ReferenceAt form.shape.baseTypes sides i t) :
      False :=
    Nat.not_le.2 (hviewed.contains_of_derived ho) (hsides.fresh i t hi)
  rcases (derived_filled hviewed hv hform hsides).1 ho with ho | ⟨i, rfl, hi⟩ <;>
    rcases (derived_filled hviewed hv hform hsides).1 ho' with ho' | ⟨j, rfl, hj⟩
  · exact hviewed.distinct o o' t ho ho'
  · exact (hapart ho hj).elim
  · exact (hapart ho' hi).elim
  · rw [hsides.distinct i j t hi hj]

include hd in
theorem viewed_filled :
    (graph'.fill v { openInterface form with baseTypes := sides }).Viewed opened := by
  have hgrows := grows_filled hviewed hv hform hsides
  have hmid := hsides.adds.viewed hviewed hsides.in_range
  have hclass := hgrows.class?_eq_some (hsides.adds.grows.class?_eq_some hform)
  have hview := (hsides.adds.node v (hviewed.contains_of_derived (.instanceInterface hv))).trans
    (node?_of_opened hviewed hv hform)
  have hcontains : ∀ base ∈ form.shape.baseTypes, graph'.Contains base :=
    fun base hbase => hsides.adds.contains (hviewed.in_range.contains_baseType hform hbase)
  have hv' := (hsides.adds.interfaceOf? d).trans hv
  have hkeep {o t} (ht : graph'.Derived o t) (ho : o ≠ .instanceInterface d) :
      (graph'.fill v { openInterface form with baseTypes := sides }).node? t = graph'.node? t :=
    node?_fill fun heq => ho (hmid.distinct o _ v (heq ▸ ht) (.instanceInterface hv'))
  refine
    { in_range := inRange_filled hviewed hform hsides
      instances := ?_, parts := ?_, filled := ?_, opened := ?_
      distinct := fun _ _ _ ho ho' => distinct_filled hviewed hv hform hsides ho ho' }
  · intro source v' h
    rw [hkeep (.classInstance h) nofun]
    exact (hmid.instances source v' h).imp_left hgrows.isSome_class?
  · intro source v' h
    obtain ⟨shape, target, typeArguments, hsource, hpart⟩ := hmid.parts source v' h
    have hne : source ≠ v := by
      rintro rfl
      cases hsource.symm.trans hview
    rw [hkeep (.interfacePart h) nofun, node?_fill hne]
    exact ⟨shape, target, typeArguments, hsource, hpart⟩
  · intro e v' h he
    by_cases hed : e = d
    · subst hed
      obtain rfl := Option.some.inj (hv'.symm.trans h)
      exact ⟨form, _, hclass, node?_fill_self (contains_of_node? hview), rfl, rfl, rfl, rfl, rfl, rfl,
        hgrows.instanceSides hsides.in_range hcontains hsides.each⟩
    · obtain ⟨form', shape, hform', hnode, hfilled⟩ :=
        hmid.filled e v' h fun hmem => (List.mem_cons.1 hmem).elim hed he
      rw [hkeep (.instanceInterface h) (by simpa using hed)]
      exact ⟨form', shape, hgrows.class?_eq_some hform', hnode,
        hgrows.isInterfaceOf hsides.in_range hform' hfilled⟩
  · intro e v' h he
    have hed : e ≠ d := fun heq => hd (heq ▸ he)
    obtain ⟨form', hform', hnode⟩ := hmid.opened e v' h (List.mem_cons_of_mem _ he)
    rw [hkeep (.instanceInterface h) (by simpa using hed)]
    exact ⟨form', hgrows.class?_eq_some hform', hnode⟩

end Filled

theorem Derives.filled {d v : TypeId} {form : ClassForm TypeId SignatureId} {sides : List TypeId}
    (h : start.Derives graph (d :: opened)) (hd : d ∉ opened) (hv : graph.interfaceOf? d = some v)
    (hfresh : start.size ≤ v.val.toNat) (hform : graph.class? d = some form)
    (hsides : graph.Sides form.shape.baseTypes sides graph') :
    start.Derives (graph'.fill v { openInterface form with baseTypes := sides }) opened := by
  have hderived := @derived_filled _ _ _ _ _ _ _ h.viewed hv hform hsides
  refine
    { viewed := viewed_filled h.viewed hd hv hform hsides
      size_le := by rw [size_fill]; exact Nat.le_trans h.size_le hsides.adds.size_le
      node := ?_, kept := fun o t ht => hderived.2 (.inl (h.kept o t ht)), fresh := ?_, accounted := ?_
      signatures := hsides.signatures.trans h.signatures
      registry := hsides.registry.trans h.registry }
  · intro t ht
    have hne : t ≠ v := by
      rintro rfl
      exact Nat.not_le.2 ht hfresh
    rw [node?_fill hne, hsides.adds.node t (Nat.lt_of_lt_of_le ht h.size_le), h.node t ht]
  · intro o t ht
    rcases hderived.1 ht with ht | ⟨i, rfl, hi⟩
    · exact h.fresh o t ht
    · exact .inr (Nat.le_trans h.size_le (hsides.fresh i t hi))
  · intro k hk hk'
    rw [size_fill] at hk'
    rcases Nat.lt_or_ge k graph.size with hlt | hge
    · exact (h.accounted k hk hlt).imp fun o ho => hderived.2 (.inl ho)
    · obtain ⟨i, hi⟩ := hsides.accounted k hge hk'
      exact ⟨_, hderived.2 (.inr ⟨i, rfl, hi⟩)⟩

theorem run_fillInterface {d v : TypeId} {form : ClassForm TypeId SignatureId}
    (hviewed : graph.Viewed (d :: opened)) (hv : graph.interfaceOf? d = some v)
    (hform : graph.class? d = some form) (hcovers : ∀ base ∈ form.shape.baseTypes, graph.Covers base)
    (hsize : ((fillInterface d v).run.run graph).2.size ≤ 0x100000000) :
    ∃ sides graph', graph.Sides form.shape.baseTypes sides graph' ∧
      (fillInterface d v).run.run graph =
        (.ok (), graph'.fill v { openInterface form with baseTypes := sides }) := by
  have hnode := class?_eq_some.1 hform
  have hview := node?_of_opened hviewed hv hform
  rw [fillInterface, run_bind, run_lookUp graph hnode] at hsize ⊢
  simp only [Node.class?, TypeForm.class?] at hsize ⊢
  obtain ⟨sides, graph', hrun, hsides⟩ := run_mapM_instanceSide form.shape.baseTypes graph hviewed.in_range
    (fun base hbase => ⟨hviewed.in_range.contains_baseType hform hbase, hcovers base hbase⟩)
    (Nat.le_trans (Enlarges.le_bind _ (.putBaseTypes v) graph) hsize)
  refine ⟨sides, graph', hsides, ?_⟩
  have hview' := (hsides.adds.node v (contains_of_node? hview)).trans hview
  simp only [run_bind, hrun, run_lookUp graph' hview', run_replace]
  rfl

/-! ### All open views -/

def fillInterfaces : List (TypeId × TypeId) → Deriving Unit
  | [] => pure ()
  | (source, view) :: pending => do
    fillInterface source view
    fillInterfaces pending

theorem forIn_fillInterface (pending : List (TypeId × TypeId)) :
    (forIn pending PUnit.unit fun (source, view) _ => do
      fillInterface source view
      pure (ForInStep.yield PUnit.unit)) = fillInterfaces pending := by
  induction pending with
  | nil => rfl
  | cons p pending ih =>
    rw [List.forIn_cons, fillInterfaces, ← ih]
    simp only [bind_assoc, pure_bind]

theorem Enlarges.fillInterfaces : ∀ pending, Enlarges (fillInterfaces pending)
  | [] => .pure ()
  | (source, view) :: pending => .bind (.fillInterface source view) fun _ => Enlarges.fillInterfaces pending

/-- When every class that a class with a view inherits from has one, all open views are filled in. -/
theorem run_fillInterfaces (hrange : start.InRange) (pending : List (TypeId × TypeId)) :
    ∀ graph : TypeGraph, start.Derives graph (pending.map Prod.fst) → (pending.map Prod.fst).Nodup →
    (∀ p ∈ pending, graph.interfaceOf? p.1 = some p.2 ∧ start.size ≤ p.2.val.toNat) →
    (∀ d e, (graph.interfaceOf? d).isSome → start.Extends d e → (graph.interfaceOf? e).isSome) →
    ((fillInterfaces pending).run.run graph).2.size ≤ 0x100000000 →
    ∃ graph', (fillInterfaces pending).run.run graph = (.ok (), graph') ∧ start.Derives graph' [] ∧
      graph'.views = graph.views := by
  induction pending with
  | nil => exact fun graph h _ _ _ _ => ⟨graph, rfl, h, rfl⟩
  | cons p pending ih =>
    obtain ⟨d, v⟩ := p
    intro graph h hnodup hviews hclosed hsize
    obtain ⟨⟨hv, hfresh⟩, hviews⟩ := List.forall_mem_cons.1 hviews
    obtain ⟨hd, hnodup⟩ := List.nodup_cons.1 hnodup
    obtain ⟨form, -, hform, -⟩ := h.viewed.view hv
    have hcovers : ∀ base ∈ form.shape.baseTypes, graph.Covers base := by
      intro base hbase e he
      obtain ⟨v', hv'⟩ := Option.isSome_iff_exists.1 <| hclosed d e (by simp [hv]) <|
        (h.extends_iff hrange).1 ⟨form, hform, base, hbase, he⟩
      exact ⟨v', hv', h.viewed.contains_of_derived (.instanceInterface hv')⟩
    rw [fillInterfaces] at hsize ⊢
    obtain ⟨sides, mid, hsides, hrun⟩ := run_fillInterface h.viewed hv hform hcovers <|
      Nat.le_trans (Enlarges.le_bind _ (fun _ => .fillInterfaces pending) graph) hsize
    have hsame : (mid.fill v { openInterface form with baseTypes := sides }).views = graph.views :=
      hsides.adds.views
    have hinterface : ∀ e, (mid.fill v { openInterface form with baseTypes := sides }).interfaceOf? e =
        graph.interfaceOf? e := hsides.adds.interfaceOf?
    rw [run_bind, hrun] at hsize ⊢
    obtain ⟨graph', hrun', h', hviews'⟩ := ih _ (h.filled hd hv hfresh hform hsides) hnodup
      (by simpa only [hinterface] using hviews) (by simpa only [hinterface] using hclosed) hsize
    exact ⟨graph', hrun', h', hviews'.trans hsame⟩

end TypeEnv.TypeGraph
