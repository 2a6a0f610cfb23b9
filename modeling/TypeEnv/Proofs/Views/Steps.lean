import TypeEnv.Proofs.Stateful
import TypeEnv.Proofs.Views.Inheritance

/-! What the steps of a derivation return and leave behind. In a graph whose references are all in the
arena no look-up of a derivation goes past the end; in any graph a derivation loses no node. -/

namespace TypeEnv.TypeGraph

open Stateful

section Steps

variable (graph : TypeGraph) {t : TypeId} {node : Node}

theorem run_lookUp (hnode : graph.node? t = some node) :
    (lookUp t).run.run graph = (.ok node, graph) := by
  simp only [lookUp, run_bind, run_get, TypeGraph.node, hnode, run_pure]

theorem run_add (node : Node) :
    (add node).run.run graph = (.ok (graph.alloc node).1, (graph.alloc node).2) := rfl

theorem run_replace (t : TypeId) (node : Node) : (replace t node).run.run graph =
    (.ok (), { graph with nodes := graph.nodes.setIfInBounds t.val.toNat node }) := rfl

theorem run_instanceInterface? (t : TypeId) :
    (instanceInterface? t).run.run graph = (.ok (graph.interfaceOf? t), graph) := rfl

theorem run_noteInterface (t view : TypeId) : (noteInterface t view).run.run graph = (.ok (),
    { graph with views.instanceInterfaces := graph.views.instanceInterfaces.insert t view }) := rfl

theorem run_classAt? (t : TypeId) : (classAt? t).run.run graph = (.ok (graph.class? t), graph) := rfl

end Steps

variable {graph : TypeGraph}

theorem run_baseClass? {base : TypeId} (h : graph.Reaches base) :
    (baseClass? base).run.run graph = (.ok (graph.classBehind? base), graph) := by
  obtain ⟨node, hnode⟩ := exists_node_of_contains h.1
  rw [baseClass?, run_bind, run_lookUp graph hnode, classBehind?, hnode]
  rcases node with form | id
  · cases form with
    | reference target typeArguments =>
      obtain ⟨node, htarget⟩ := exists_node_of_contains (h.2 target typeArguments hnode)
      simp only [run_bind, run_lookUp graph htarget, run_pure, class?, htarget, Option.bind_some]
    | _ => rfl
  · rfl

theorem run_filterMapM_baseClass? {bases : List TypeId} (hbases : ∀ base ∈ bases, graph.Reaches base) :
    (bases.filterMapM baseClass?).run.run graph = (.ok (bases.filterMap graph.classBehind?), graph) := by
  induction bases with
  | nil => rfl
  | cons base bases ih =>
    obtain ⟨hbase, hbases⟩ := List.forall_mem_cons.1 hbases
    rw [List.filterMapM_cons, run_bind, run_baseClass? hbase, List.filterMap_cons]
    cases graph.classBehind? base with
    | none => exact ih hbases
    | some t => simp only [run_bind, ih hbases, run_pure]

/-! ### No node is lost -/

/-- The graph is never left with fewer nodes. -/
def Enlarges {α : Type} (x : Deriving α) : Prop := ∀ graph, graph.size ≤ (x.run.run graph).2.size

namespace Enlarges

variable {α β : Type}

theorem pure (a : α) : Enlarges (pure a) := fun _ => Nat.le_refl _

/-- What a part leaves behind is no larger than what the whole leaves behind. -/
theorem le_bind (x : Deriving α) {f : α → Deriving β} (hf : ∀ a, Enlarges (f a)) (graph : TypeGraph) :
    (x.run.run graph).2.size ≤ ((x >>= f).run.run graph).2.size := by
  rw [run_bind]
  rcases x.run.run graph with ⟨fault | a, graph'⟩
  · exact Nat.le_refl _
  · exact hf a graph'

theorem bind {x : Deriving α} {f : α → Deriving β} (hx : Enlarges x) (hf : ∀ a, Enlarges (f a)) :
    Enlarges (x >>= f) :=
  fun graph => Nat.le_trans (hx graph) (le_bind x hf graph)

theorem lookUp (t : TypeId) : Enlarges (lookUp t) := by
  refine bind (fun _ => Nat.le_refl _) fun graph => ?_
  cases graph.node t <;> exact fun _ => Nat.le_refl _

theorem add (node : Node) : Enlarges (add node) := by
  intro graph
  simp [run_add, alloc, size]

theorem replace (t : TypeId) (node : Node) : Enlarges (replace t node) := by
  intro graph
  simp [run_replace, size]

theorem instanceInterface? (t : TypeId) : Enlarges (instanceInterface? t) := fun _ => Nat.le_refl _

theorem noteInterface (t view : TypeId) : Enlarges (noteInterface t view) := fun _ => Nat.le_refl _

theorem classAt? (t : TypeId) : Enlarges (classAt? t) := fun _ => Nat.le_refl _

theorem mapM {f : α → Deriving β} (hf : ∀ a, Enlarges (f a)) : ∀ l : List α, Enlarges (l.mapM f)
  | [] => pure []
  | a :: l => by
    rw [List.mapM_cons]
    exact bind (hf a) fun b => bind (mapM hf l) fun bs => pure (b :: bs)

theorem filterMapM {f : α → Deriving (Option β)} (hf : ∀ a, Enlarges (f a)) :
    ∀ l : List α, Enlarges (l.filterMapM f)
  | [] => pure []
  | a :: l => by
    rw [List.filterMapM_cons]
    refine bind (hf a) fun b => ?_
    cases b with
    | none => exact filterMapM hf l
    | some b => exact bind (filterMapM hf l) fun bs => pure (b :: bs)

theorem baseClass? (base : TypeId) : Enlarges (baseClass? base) := by
  refine bind (lookUp base) fun node => ?_
  split
  · exact pure _
  · exact bind (lookUp _) fun _ => pure _
  · exact pure _

theorem allocInterfaces : ∀ budget worklist, Enlarges (allocInterfaces budget worklist)
  | 0, _ | _ + 1, [] => pure []
  | budget + 1, source :: worklist => by
    refine bind (instanceInterface? source) fun view => ?_
    split
    · exact allocInterfaces budget worklist
    · refine bind (lookUp source) fun node => ?_
      split
      · exact allocInterfaces budget worklist
      · exact bind (filterMapM baseClass? _) fun bases => bind (add _) fun view =>
          bind (noteInterface source view) fun _ => bind (allocInterfaces budget _) fun _ => pure _

theorem instanceSide (base : TypeId) : Enlarges (instanceSide base) := by
  refine bind (lookUp base) fun node => ?_
  split
  · exact bind (instanceInterface? base) fun _ => pure _
  · refine bind (lookUp _) fun node => ?_
    split
    · refine bind (instanceInterface? _) fun view => ?_
      split
      · exact add _
      · exact pure _
    · exact pure _
  · exact pure _

theorem putBaseTypes (view : TypeId) (baseTypes : List TypeId) : Enlarges (do
    if let .form (.interface shape) ← TypeGraph.lookUp view then
      TypeGraph.replace view (.form (.interface { shape with baseTypes }))) := by
  refine bind (lookUp view) fun node => ?_
  split
  · exact replace _ _
  · exact pure _

theorem fillInterface (source view : TypeId) : Enlarges (fillInterface source view) := by
  refine bind (lookUp source) fun node => ?_
  split
  · exact bind (mapM instanceSide _) (putBaseTypes view)
  · exact pure _

end Enlarges

end TypeEnv.TypeGraph
