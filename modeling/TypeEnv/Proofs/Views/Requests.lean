import TypeEnv.Proofs.Views.FillViews
import TypeEnv.Proofs.Views.OpenViews

/-! Requests for views. What a request leaves behind is told by the origins that have a node then: those
that had one, and those that the request leads to. Its answer is what is noted under its source. -/

namespace TypeEnv

inductive ViewRequest where
  | classInstance (source : TypeId)
  | instanceInterface (source : TypeId)
  | interfacePart (source : TypeId)
  deriving DecidableEq

namespace TypeGraph

open Stateful

def perform : ViewRequest → Deriving (Option TypeId)
  | .classInstance source => instanceOf source
  | .instanceInterface source => instanceInterface source
  | .interfacePart source => interfacePart source

variable (graph : TypeGraph)

/-- The view noted for a request. -/
def noted? : ViewRequest → Option TypeId
  | .classInstance source => graph.views.instances[source]?
  | .instanceInterface source => graph.interfaceOf? source
  | .interfacePart source => graph.views.interfaceParts[source]?

/-- The origin has a node. -/
def Holds (o : Origin) : Prop := ∃ t, graph.Derived o t

/-- A request leads to the view it is for; a request for the interface of a class also to those of
the classes it inherits from, and to a node for each reference to a class among their base types. -/
inductive LeadsTo : ViewRequest → Origin → Prop where
  | classInstance {source} : (graph.class? source).isSome →
    LeadsTo (.classInstance source) (.classInstance source)
  | interfacePart {source shape target typeArguments} :
    graph.node? source = some (.form (.generic shape target typeArguments)) →
    LeadsTo (.interfacePart source) (.interfacePart source)
  | instanceInterface {source d} : (graph.class? source).isSome → graph.Inherits source d →
    LeadsTo (.instanceInterface source) (.instanceInterface d)
  | baseReference {source d form base} {position : Nat} : (graph.class? source).isSome →
    graph.Inherits source d → graph.class? d = some form →
    form.shape.baseTypes[position]? = some base → graph.ReferencesClass base →
    LeadsTo (.instanceInterface source) (.baseReference d position)

variable {graph} {graph' : TypeGraph}

/-! ### Which origins have a node -/

@[simp] theorem holds_classInstance {source : TypeId} :
    graph.Holds (.classInstance source) ↔ graph.views.instances[source]?.isSome := by
  rw [Holds, Option.isSome_iff_exists]
  simp only [derived_classInstance]

@[simp] theorem holds_interfacePart {source : TypeId} :
    graph.Holds (.interfacePart source) ↔ graph.views.interfaceParts[source]?.isSome := by
  rw [Holds, Option.isSome_iff_exists]
  simp only [derived_interfacePart]

@[simp] theorem holds_instanceInterface {d : TypeId} :
    graph.Holds (.instanceInterface d) ↔ (graph.interfaceOf? d).isSome := by
  rw [Holds, Option.isSome_iff_exists]
  simp only [derived_instanceInterface]

theorem Viewed.holds_baseReference (h : graph.Viewed []) {d : TypeId} {position : Nat} :
    graph.Holds (.baseReference d position) ↔ (graph.interfaceOf? d).isSome ∧ ∃ form base,
      graph.class? d = some form ∧ form.shape.baseTypes[position]? = some base ∧
        graph.ReferencesClass base := by
  constructor
  · rintro ⟨t, _ | _ | _ | ⟨hform, hv, -, hbase, href, -⟩⟩
    exact ⟨by simp [hv], _, _, hform, hbase, href⟩
  · rintro ⟨hd, form, base, hform, hbase, href⟩
    obtain ⟨v, hv⟩ := Option.isSome_iff_exists.1 hd
    obtain ⟨form', shape, hform', hview, hfilled⟩ := h.filled d v hv List.not_mem_nil
    obtain rfl := Option.some.inj (hform.symm.trans hform')
    have hlt := (List.getElem?_eq_some_iff.1 hbase).1
    rw [hfilled.baseTypes.length_eq] at hlt
    exact ⟨_, .baseReference hform hv hview hbase href (List.getElem?_eq_getElem hlt)⟩

/-- Where references were made is told by which classes have views. -/
theorem Derives.holds_baseReference (h : graph.Derives graph' []) (hviewed : graph.Viewed [])
    {source d : TypeId} {position : Nat} (hinterfaces : (graph'.interfaceOf? d).isSome ↔
      (graph.interfaceOf? d).isSome ∨ (graph.class? source).isSome ∧ graph.Inherits source d) :
    graph'.Holds (.baseReference d position) ↔ graph.Holds (.baseReference d position) ∨
      graph.LeadsTo (.instanceInterface source) (.baseReference d position) := by
  have hsame : (∃ form base, graph'.class? d = some form ∧
      form.shape.baseTypes[position]? = some base ∧ graph'.ReferencesClass base) ↔
      ∃ form base, graph.class? d = some form ∧
        form.shape.baseTypes[position]? = some base ∧ graph.ReferencesClass base := by
    simp only [h.class?]
    refine exists_congr fun form => exists_congr fun base => and_congr_right fun hform =>
      and_congr_right fun hbase => h.referencesClass ?_
    exact hviewed.in_range.contains_baseType hform (List.mem_of_getElem? hbase)
  rw [h.viewed.holds_baseReference, hviewed.holds_baseReference, hinterfaces, hsame, or_and_right]
  refine or_congr_right ⟨?_, ?_⟩
  · rintro ⟨⟨hsource, hinherits⟩, form, base, hform, hbase, href⟩
    exact .baseReference hsource hinherits hform hbase href
  · rintro (_ | _ | _ | ⟨hsource, hinherits, hform, hbase, href⟩)
    exact ⟨⟨hsource, hinherits⟩, _, _, hform, hbase, href⟩

/-- The views that are not interfaces of classes are made in one step. -/
theorem Derives.leadsTo_iff {start : TypeGraph} (h : start.Derives graph []) (hrange : start.InRange)
    {request : ViewRequest} {o : Origin} : graph.LeadsTo request o ↔ start.LeadsTo request o := by
  constructor
  · rintro (hclass | hnode | ⟨hclass, hinherits⟩ | ⟨hclass, hinherits, hform, hbase, href⟩)
    · exact .classInstance (by rwa [← h.class?])
    · exact .interfacePart (h.generic_iff.1 hnode)
    · exact .instanceInterface (by rwa [← h.class?]) ((h.inherits_iff hrange).1 hinherits)
    · rw [h.class?] at hclass hform
      exact .baseReference hclass ((h.inherits_iff hrange).1 hinherits) hform hbase
        ((h.referencesClass (hrange.contains_baseType hform (List.mem_of_getElem? hbase))).1 href)
  · rintro (hclass | hnode | ⟨hclass, hinherits⟩ | ⟨hclass, hinherits, hform, hbase, href⟩)
    · exact .classInstance (by rwa [h.class?])
    · exact .interfacePart (h.generic_iff.2 hnode)
    · exact .instanceInterface (by rwa [h.class?]) ((h.inherits_iff hrange).2 hinherits)
    · have hcontains := hrange.contains_baseType hform (List.mem_of_getElem? hbase)
      rw [← h.class?] at hclass hform
      exact .baseReference hclass ((h.inherits_iff hrange).2 hinherits) hform hbase
        ((h.referencesClass hcontains).2 href)

/-! ### What a request does -/

/-- A request is answered, from the views that it makes where they are missing. -/
structure Performs (graph : TypeGraph) (request : ViewRequest) (graph' : TypeGraph) : Prop where
  run : (perform request).run.run graph = (.ok (graph'.noted? request), graph')
  derives : graph.Derives graph' []
  holds : ∀ o, graph'.Holds o ↔ graph.Holds o ∨ graph.LeadsTo request o

/-- A view that is noted is the answer, and nothing else happens. -/
theorem run_perform_of_noted (request : ViewRequest) {v : TypeId} (h : graph.noted? request = some v) :
    (perform request).run.run graph = (.ok (some v), graph) := by
  cases request with
  | classInstance source =>
    rw [noted?] at h
    simp only [perform, instanceOf, run_bind, run_get, h]
    rfl
  | instanceInterface source =>
    rw [noted?] at h
    simp only [perform, instanceInterface, run_bind, run_instanceInterface?, h]
    rfl
  | interfacePart source =>
    rw [noted?] at h
    simp only [perform, interfacePart, run_bind, run_get, h]
    rfl

/-- Nothing is made when there is nothing new that the request leads to. -/
theorem Performs.same {request : ViewRequest} (hviewed : graph.Viewed [])
    (hrun : (perform request).run.run graph = (.ok (graph.noted? request), graph))
    (hholds : ∀ o, graph.LeadsTo request o → graph.Holds o) : graph.Performs request graph where
  run := hrun
  derives := .refl hviewed
  holds o := (or_iff_left_of_imp (hholds o)).symm

theorem Performs.withView {request : ViewRequest} {o : Origin} {node : Node} (hviewed : graph.Viewed [])
    (hadds : graph.Adds o node) (hfree : ∀ t, ¬ graph.Derived o t) (hopens : o.opens = [])
    (hleads : ∀ o', graph.LeadsTo request o' ↔ o' = o)
    (hrun : (perform request).run.run graph = (.ok (some graph.next), graph.withView o node))
    (hnoted : (graph.withView o node).noted? request = some graph.next)
    (hsize : ((perform request).run.run graph).2.size ≤ 0x100000000) :
    graph.Performs request (graph.withView o node) := by
  have hroom : graph.size < 0x100000000 := by rwa [hrun, size_withView] at hsize
  refine ⟨hrun.trans (by rw [hnoted]), ?_, fun o' => ?_⟩
  · simpa [hopens] using (Derives.refl hviewed).withView hroom hadds hfree
  · simp only [Holds, derived_withView hroom hviewed hadds hfree, hleads, exists_or, exists_and_left,
      exists_eq, and_true]

theorem performs_classInstance (hviewed : graph.Viewed []) (source : TypeId)
    (hsize : ((perform (.classInstance source)).run.run graph).2.size ≤ 0x100000000) :
    ∃ graph', graph.Performs (.classInstance source) graph' := by
  cases hnoted : graph.views.instances[source]? with
  | some v =>
    refine ⟨graph, .same hviewed ?_ ?_⟩
    · rw [run_perform_of_noted (.classInstance source) hnoted, noted?, hnoted]
    · rintro o ⟨-⟩
      simp [hnoted]
  | none =>
    cases hclass : graph.class? source with
    | none =>
      refine ⟨graph, .same hviewed ?_ ?_⟩
      · simp only [perform, instanceOf, run_bind, run_get, noted?, hnoted, run_classAt?, hclass]
        rfl
      · rintro o ⟨h⟩
        simp [hclass] at h
    | some form =>
      have hsource : (graph.class? source).isSome := by simp [hclass]
      refine ⟨_, .withView hviewed (.classInstance hsource) (by simp [hnoted]) rfl ?_ ?_
        Std.TreeMap.getElem?_insert_self hsize⟩
      · exact fun o => ⟨fun | .classInstance _ => rfl, fun h => h ▸ .classInstance hsource⟩
      · simp only [perform, instanceOf, run_bind, run_get, hnoted, run_classAt?, hclass, run_add]
        rfl

theorem performs_interfacePart (hviewed : graph.Viewed []) (source : TypeId)
    (hsize : ((perform (.interfacePart source)).run.run graph).2.size ≤ 0x100000000) :
    ∃ graph', graph.Performs (.interfacePart source) graph' := by
  cases hnoted : graph.views.interfaceParts[source]? with
  | some v =>
    refine ⟨graph, .same hviewed ?_ ?_⟩
    · rw [run_perform_of_noted (.interfacePart source) hnoted, noted?, hnoted]
    · rintro o ⟨-⟩
      simp [hnoted]
  | none =>
    by_cases hgeneric : ∃ shape target typeArguments,
        graph.node? source = some (.form (.generic shape target typeArguments))
    · obtain ⟨shape, target, typeArguments, hnode⟩ := hgeneric
      refine ⟨_, .withView hviewed (.interfacePart hnode) (by simp [hnoted]) rfl ?_ ?_
        Std.TreeMap.getElem?_insert_self hsize⟩
      · exact fun o => ⟨fun | .interfacePart _ => rfl, fun h => h ▸ .interfacePart hnode⟩
      · simp only [perform, interfacePart, run_bind, run_get, hnoted, hnode, run_add]
        rfl
    · refine ⟨graph, .same hviewed ?_ ?_⟩
      · simp only [perform, interfacePart, run_bind, run_get, noted?, hnoted]
        split
        · next shape target typeArguments hnode => exact absurd ⟨shape, target, typeArguments, hnode⟩ hgeneric
        · rfl
      · rintro o (_ | hnode)
        exact absurd ⟨_, _, _, hnode⟩ hgeneric

/-! ### Interfaces of classes -/

/-- Where all views are filled in, a class with a view has all that it leads to. -/
theorem Viewed.holds_of_leadsTo (h : graph.Viewed []) {source : TypeId} {o : Origin}
    (hsource : (graph.interfaceOf? source).isSome) (ho : graph.LeadsTo (.instanceInterface source) o) :
    graph.Holds o := by
  have hinherited {d} (hinherits : graph.Inherits source d) : (graph.interfaceOf? d).isSome := by
    induction hinherits with
    | refl => exact hsource
    | tail _ hextends ih => exact h.closed ih hextends
  obtain _ | _ | ⟨-, hinherits⟩ | ⟨-, hinherits, hform, hbase, href⟩ := ho
  · exact holds_instanceInterface.2 (hinherited hinherits)
  · exact h.holds_baseReference.2 ⟨hinherited hinherits, _, _, hform, hbase, href⟩

theorem Frontier.start (hviewed : graph.Viewed []) {c : TypeId} (hc : (graph.class? c).isSome) :
    Frontier graph graph [c] where
  classes := by simpa using hc
  closed _ _ hd he := .inl (hviewed.closed hd he)

/-- The budget that the graph gives the worklist of a class is never used up. -/
theorem run_allocInterfaces_class (hviewed : graph.Viewed []) {c : TypeId} (hc : (graph.class? c).isSome)
    (hsize : ((allocInterfaces (graph.baseTypeCount + 1) [c]).run.run graph).2.size ≤ 0x100000000) :
    ∃ pending graph', (∀ budget ≥ graph.baseTypeCount + 1,
        (allocInterfaces budget [c]).run.run graph = (.ok pending, graph')) ∧
      graph.Derives graph' (pending.map Prod.fst) ∧ Opens graph graph [c] pending graph' := by
  have hstart := Nat.le_trans (Enlarges.allocInterfaces _ _ graph) hsize
  have hbudget := unopened_le graph graph hstart
  obtain ⟨pending, graph', hrun, hderives, hopens⟩ := run_allocInterfaces hviewed.in_range hstart _ graph []
    [c] (.refl hviewed) (.start hviewed hc) (by rw [List.length_singleton]; omega) hsize
  exact ⟨pending, graph', hrun, by simpa using hderives, hopens⟩

/-- The classes that gain views are those that `c` inherits from. -/
theorem Opens.isSome_iff {c d : TypeId} {pending : List (TypeId × TypeId)} (h : Opens graph graph [c] pending graph')
    (hc : (graph.class? c).isSome) : (graph'.interfaceOf? d).isSome ↔
      (graph.interfaceOf? d).isSome ∨ (graph.class? c).isSome ∧ graph.Inherits c d := by
  constructor
  · intro hd
    obtain ⟨v, hv⟩ := Option.isSome_iff_exists.1 hd
    rcases (h.interfaces d v).1 hv with hv | hv
    · exact .inl (by simp [hv])
    · obtain ⟨t, ht, hinherits⟩ := h.inherited d (List.mem_map_of_mem hv)
      exact .inr ⟨hc, List.mem_singleton.1 ht ▸ hinherits⟩
  · rintro (hd | ⟨-, hinherits⟩)
    · obtain ⟨v, hv⟩ := Option.isSome_iff_exists.1 hd
      exact Option.isSome_iff_exists.2 ⟨v, (h.interfaces d v).2 (.inl hv)⟩
    · induction hinherits with
      | refl => exact h.worklist c (List.mem_singleton_self c)
      | tail _ hextends ih => exact h.closed _ _ ih hextends

theorem run_instanceInterface {source : TypeId} {form : ClassForm TypeId SignatureId}
    (hform : graph.class? source = some form) (hnoted : graph.interfaceOf? source = none) :
    (instanceInterface source).run.run graph = (do
      let pending ← allocInterfaces (graph.baseTypeCount + 1) [source]
      fillInterfaces pending
      instanceInterface? source : Deriving (Option TypeId)).run.run graph := by
  simp only [instanceInterface, run_bind, run_instanceInterface?, hnoted, run_classAt?, hform, run_get,
    forIn_fillInterface]

theorem performs_newInterface (hviewed : graph.Viewed []) {source : TypeId}
    {form : ClassForm TypeId SignatureId} (hform : graph.class? source = some form)
    (hnoted : graph.interfaceOf? source = none)
    (hsize : ((perform (.instanceInterface source)).run.run graph).2.size ≤ 0x100000000) :
    ∃ graph', graph.Performs (.instanceInterface source) graph' := by
  have hsource : (graph.class? source).isSome := by simp [hform]
  rw [perform, run_instanceInterface hform hnoted] at hsize
  obtain ⟨pending, mid, halloc, hmid, hopens⟩ := run_allocInterfaces_class hviewed hsource <|
    Nat.le_trans (Enlarges.le_bind _ (fun pending => .bind (.fillInterfaces pending) fun _ =>
      .instanceInterface? source) graph) hsize
  rw [run_bind, halloc _ (Nat.le_refl _)] at hsize
  have hnew : ∀ p ∈ pending, mid.interfaceOf? p.1 = some p.2 ∧ graph.size ≤ p.2.val.toNat := by
    intro p hp
    have hv := (hopens.interfaces p.1 p.2).2 (.inr hp)
    refine ⟨hv, (hmid.fresh _ _ (.instanceInterface hv)).resolve_left fun hold => ?_⟩
    cases (hopens.unviewed p.1 (List.mem_map_of_mem hp)).symm.trans (derived_instanceInterface.1 hold)
  obtain ⟨graph', hfill, hderives, hviews⟩ := run_fillInterfaces hviewed.in_range pending mid hmid hopens.nodup
    hnew hopens.closed <| Nat.le_trans (Enlarges.le_bind _ (fun _ => .instanceInterface? source) mid) hsize
  have hinterface : ∀ d, graph'.interfaceOf? d = mid.interfaceOf? d := fun d => by
    rw [interfaceOf?, hviews]
    rfl
  have hinterfaces : ∀ d, (graph'.interfaceOf? d).isSome ↔
      (graph.interfaceOf? d).isSome ∨ (graph.class? source).isSome ∧ graph.Inherits source d :=
    fun d => by rw [hinterface, hopens.isSome_iff hsource]
  refine ⟨graph', ?_, hderives, fun o => ?_⟩
  · rw [perform, run_instanceInterface hform hnoted]
    simp only [run_bind, halloc _ (Nat.le_refl _), hfill]
    rfl
  · cases o with
    | classInstance d =>
      rw [holds_classInstance, holds_classInstance, hviews, hopens.instances]
      exact (or_iff_left (by rintro ⟨⟩)).symm
    | interfacePart d =>
      rw [holds_interfacePart, holds_interfacePart, hviews, hopens.interfaceParts]
      exact (or_iff_left (by rintro ⟨⟩)).symm
    | instanceInterface d =>
      rw [holds_instanceInterface, holds_instanceInterface, hinterfaces]
      refine or_congr_right ⟨fun h => .instanceInterface h.1 h.2, ?_⟩
      rintro (_ | _ | ⟨hclass, hinherits⟩)
      exact ⟨hclass, hinherits⟩
    | baseReference d position => exact hderives.holds_baseReference hviewed (hinterfaces d)

theorem performs_instanceInterface (hviewed : graph.Viewed []) (source : TypeId)
    (hsize : ((perform (.instanceInterface source)).run.run graph).2.size ≤ 0x100000000) :
    ∃ graph', graph.Performs (.instanceInterface source) graph' := by
  cases hnoted : graph.interfaceOf? source with
  | some v =>
    refine ⟨graph, .same hviewed ?_ fun o ho => hviewed.holds_of_leadsTo (by simp [hnoted]) ho⟩
    rw [run_perform_of_noted (.instanceInterface source) hnoted, noted?, hnoted]
  | none =>
    cases hclass : graph.class? source with
    | none =>
      refine ⟨graph, .same hviewed ?_ ?_⟩
      · simp only [perform, instanceInterface, run_bind, run_instanceInterface?, hnoted, run_classAt?, hclass,
          noted?]
        rfl
      · rintro o (_ | _ | ⟨h, -⟩ | ⟨h, -⟩) <;> simp [hclass] at h
    | some form => exact performs_newInterface hviewed hclass hnoted hsize

/-- Every request is answered. -/
theorem exists_performs (hviewed : graph.Viewed []) (request : ViewRequest)
    (hsize : ((perform request).run.run graph).2.size ≤ 0x100000000) :
    ∃ graph', graph.Performs request graph' := by
  cases request with
  | classInstance source => exact performs_classInstance hviewed source hsize
  | instanceInterface source => exact performs_instanceInterface hviewed source hsize
  | interfacePart source => exact performs_interfacePart hviewed source hsize

theorem Enlarges.perform (request : ViewRequest) : Enlarges (perform request) := by
  cases request with
  | classInstance source =>
    refine .bind (fun _ => Nat.le_refl _) fun graph => ?_
    split
    · exact .pure _
    · refine .bind (.classAt? source) fun form => ?_
      split
      · exact .bind (.add _) fun _ => .bind (fun _ => Nat.le_refl _) fun _ => .pure _
      · exact .pure _
  | interfacePart source =>
    refine .bind (fun _ => Nat.le_refl _) fun graph => ?_
    split
    · exact .pure _
    · refine .bind (fun _ => Nat.le_refl _) fun graph => ?_
      split
      · exact .bind (.add _) fun _ => .bind (fun _ => Nat.le_refl _) fun _ => .pure _
      · exact .pure _
  | instanceInterface source =>
    refine .bind (.instanceInterface? source) fun view => ?_
    split
    · exact .pure _
    · refine .bind (.classAt? source) fun form => ?_
      split
      · refine .bind (fun _ => Nat.le_refl _) fun graph => .bind (.allocInterfaces _ _) fun pending => ?_
        rw [forIn_fillInterface]
        exact .bind (.fillInterfaces pending) fun _ => .instanceInterface? source
      · exact .pure _

end TypeGraph

end TypeEnv
