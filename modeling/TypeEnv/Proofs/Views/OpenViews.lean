import TypeEnv.Proofs.Views.Derivation
import TypeEnv.Proofs.Views.Steps
import Mathlib.Algebra.BigOperators.Fin
import Mathlib.Algebra.Order.BigOperators.Group.Finset

/-! Opening views: the classes that a worklist leads to are given views whose base types are left open.
A class is given its view once, and at that moment its base classes join the worklist. The budget
bounds the entries to come, so the loop ends with nothing left to open, however the classes inherit
from each other. -/

namespace TypeEnv.TypeGraph

open Stateful

/-! ### The budget -/

def baseTypesAt (graph : TypeGraph) (t : TypeId) : List TypeId :=
  ((graph.class? t).map fun form => form.shape.baseTypes).getD []

/-- How many base types the classes of `start` have that are without a view in `graph`. -/
def unopened (start graph : TypeGraph) : Nat :=
  ∑ k ∈ Finset.range start.size,
    if (graph.interfaceOf? ⟨k.toUInt32⟩).isSome then 0 else (start.baseTypesAt ⟨k.toUInt32⟩).length

/-- What `pending` has to be after the views that `worklist` leads to are opened: the classes that
have a view now and had none before, each with its view. -/
structure Opens (start graph : TypeGraph) (worklist : List TypeId)
    (pending : List (TypeId × TypeId)) (graph' : TypeGraph) : Prop where
  interfaces : ∀ d v, graph'.interfaceOf? d = some v ↔ graph.interfaceOf? d = some v ∨ (d, v) ∈ pending
  instances : graph'.views.instances = graph.views.instances
  interfaceParts : graph'.views.interfaceParts = graph.views.interfaceParts
  unviewed : ∀ d ∈ pending.map Prod.fst, graph.interfaceOf? d = none
  nodup : (pending.map Prod.fst).Nodup
  inherited : ∀ d ∈ pending.map Prod.fst, ∃ t ∈ worklist, start.Inherits t d
  worklist : ∀ t ∈ worklist, (graph'.interfaceOf? t).isSome
  closed : ∀ d e, (graph'.interfaceOf? d).isSome → start.Extends d e → (graph'.interfaceOf? e).isSome

variable {start graph : TypeGraph} {opened : List TypeId}

theorem baseTypesAt_eq {t : TypeId} {form : ClassForm TypeId SignatureId}
    (hform : start.class? t = some form) : start.baseTypesAt t = form.shape.baseTypes := by
  rw [baseTypesAt, hform]
  rfl

theorem unopened_withView {d : TypeId} {node : Node} (hsize : start.size ≤ 0x100000000)
    (hd : start.Contains d) (hnone : graph.interfaceOf? d = none) :
    unopened start (graph.withView (.instanceInterface d) node) + (start.baseTypesAt d).length =
      unopened start graph := by
  have hmem : d.val.toNat ∈ Finset.range start.size := Finset.mem_range.2 hd
  rw [unopened, unopened, ← Finset.sum_erase_add _ _ hmem, ← Finset.sum_erase_add _ _ hmem]
  simp only [TypeId.word_eq, interfaceOf?_withView, Origin.instanceInterface.injEq, if_true, hnone,
    Option.isSome_some, Option.isSome_none, Bool.false_eq_true, if_false, Nat.add_zero]
  congr 1
  refine Finset.sum_congr rfl fun k hk => ?_
  obtain ⟨hne, hk⟩ := Finset.mem_erase.1 hk
  have hword := toNat_toUInt32 (Nat.lt_of_lt_of_le (Finset.mem_range.1 hk) hsize)
  have hne' : d ≠ ⟨k.toUInt32⟩ := fun heq => hne (by rw [heq, hword])
  simp only [if_neg hne']

theorem unopened_le (start graph : TypeGraph) (hsize : start.size ≤ 0x100000000) :
    unopened start graph ≤ start.baseTypeCount := by
  have hcount : start.baseTypeCount =
      ∑ k ∈ Finset.range start.size, (start.baseTypesAt ⟨k.toUInt32⟩).length := by
    rw [baseTypeCount, List.length_flatMap, ← Fin.sum_univ_fun_getElem, ← Fin.sum_univ_eq_sum_range]
    refine Finset.sum_congr rfl fun k _ => ?_
    have hlt : k.val < start.size := k.isLt
    rw [baseTypesAt, class?, node?, toNat_toUInt32 (Nat.lt_of_lt_of_le hlt hsize),
      Array.getElem?_eq_getElem hlt]
    rfl
  rw [hcount]
  refine Finset.sum_le_sum fun k _ => ?_
  split
  · exact Nat.zero_le _
  · exact Nat.le_refl _

/-- A class that leaves the worklist for its base classes uses up no more of the budget than its own entry. -/
theorem length_bases_add_unopened_le {d : TypeId} {form : ClassForm TypeId SignatureId} (node : Node)
    (hsize : start.size ≤ 0x100000000) (hform : start.class? d = some form)
    (hnone : graph.interfaceOf? d = none) :
    (form.shape.baseTypes.filterMap graph.classBehind?).reverse.length +
      unopened start (graph.withView (.instanceInterface d) node) ≤ unopened start graph := by
  have hunopened := @unopened_withView _ _ _ node hsize (contains_of_class? hform) hnone
  have hlength := List.length_filterMap_le graph.classBehind? form.shape.baseTypes
  rw [baseTypesAt_eq hform] at hunopened
  rw [List.length_reverse]
  omega

/-! ### The worklist -/

/-- The worklist holds classes, and every class that a view is still missing for. -/
structure Frontier (start graph : TypeGraph) (worklist : List TypeId) : Prop where
  classes : ∀ t ∈ worklist, (start.class? t).isSome
  closed : ∀ d e, (graph.interfaceOf? d).isSome → start.Extends d e →
    (graph.interfaceOf? e).isSome ∨ e ∈ worklist

section Steps

variable {worklist : List TypeId} {pending : List (TypeId × TypeId)} {graph' : TypeGraph} {d : TypeId}
  {node : Node} {bases : List TypeId}

theorem Frontier.skip (h : Frontier start graph (d :: worklist)) (hd : (graph.interfaceOf? d).isSome) :
    Frontier start graph worklist where
  classes := (List.forall_mem_cons.1 h.classes).2
  closed d' e hd' he := by
    rcases h.closed d' e hd' he with he | he
    · exact .inl he
    · rcases List.mem_cons.1 he with rfl | he
      · exact .inl hd
      · exact .inr he

theorem Frontier.take (h : Frontier start graph (d :: worklist))
    (hbases : ∀ e, e ∈ bases ↔ start.Extends d e) :
    Frontier start (graph.withView (.instanceInterface d) node) (bases ++ worklist) where
  classes t ht := by
    rcases List.mem_append.1 ht with ht | ht
    · obtain ⟨form, -, base, -, ht⟩ := (hbases t).1 ht
      exact class_of_classBehind? ht
    · exact h.classes t (List.mem_cons_of_mem _ ht)
  closed d' e hd' he := by
    simp only [interfaceOf?_withView, Origin.instanceInterface.injEq] at hd' ⊢
    split at hd'
    · next heq => exact .inr (List.mem_append_left _ ((hbases e).2 (heq ▸ he)))
    · rcases h.closed d' e hd' he with he | he
      · split <;> simp [he]
      · rcases List.mem_cons.1 he with rfl | he
        · simp
        · exact .inr (List.mem_append_right _ he)

theorem Opens.nil (h : Frontier start graph []) : Opens start graph [] [] graph where
  interfaces d v := by simp
  instances := rfl
  interfaceParts := rfl
  unviewed := by simp
  nodup := List.nodup_nil
  inherited := by simp
  worklist := by simp
  closed d e hd he := (h.closed d e hd he).resolve_right List.not_mem_nil

theorem Opens.skip (h : Opens start graph worklist pending graph') (hd : (graph.interfaceOf? d).isSome) :
    Opens start graph (d :: worklist) pending graph' :=
  { h with
    inherited := fun e he => (h.inherited e he).imp fun _ => .imp_left (List.mem_cons_of_mem _)
    worklist := by
      refine List.forall_mem_cons.2 ⟨?_, h.worklist⟩
      obtain ⟨v, hv⟩ := Option.isSome_iff_exists.1 hd
      exact Option.isSome_iff_exists.2 ⟨v, (h.interfaces d v).2 (.inl hv)⟩ }

theorem Opens.take (hnone : graph.interfaceOf? d = none) (hbases : ∀ e, e ∈ bases ↔ start.Extends d e)
    (h : Opens start (graph.withView (.instanceInterface d) node) (bases ++ worklist) pending graph') :
    Opens start graph (d :: worklist) ((d, graph.next) :: pending) graph' := by
  have hfresh : ∀ e ∈ pending.map Prod.fst, e ≠ d ∧ graph.interfaceOf? e = none := by
    intro e he
    have h := h.unviewed e he
    rw [interfaceOf?_withView] at h
    split at h
    · cases h
    · next hne => exact ⟨fun heq => hne (heq ▸ rfl), h⟩
  have hinterfaces : ∀ e v, graph'.interfaceOf? e = some v ↔
      graph.interfaceOf? e = some v ∨ (e, v) ∈ (d, graph.next) :: pending := by
    intro e v
    rw [h.interfaces, interfaceOf?_withView, List.mem_cons, ← or_assoc, Prod.mk.injEq]
    refine or_congr_left ?_
    by_cases he : d = e
    · subst he
      simp [hnone, eq_comm]
    · simp [he, Ne.symm he]
  refine { h with interfaces := hinterfaces, unviewed := ?_, nodup := ?_, inherited := ?_, worklist := ?_ }
  · exact List.forall_mem_cons.2 ⟨hnone, fun e he => (hfresh e he).2⟩
  · exact List.nodup_cons.2 ⟨fun hd => (hfresh d hd).1 rfl, h.nodup⟩
  · refine List.forall_mem_cons.2 ⟨⟨d, List.mem_cons_self, .refl⟩, fun e he => ?_⟩
    obtain ⟨t, ht, hinherits⟩ := h.inherited e he
    rcases List.mem_append.1 ht with ht | ht
    · exact ⟨d, List.mem_cons_self, .head ((hbases t).1 ht) hinherits⟩
    · exact ⟨t, List.mem_cons_of_mem _ ht, hinherits⟩
  · refine List.forall_mem_cons.2 ⟨?_, fun t ht => h.worklist t (List.mem_append_right _ ht)⟩
    exact Option.isSome_iff_exists.2 ⟨_, (hinterfaces d _).2 (.inr List.mem_cons_self)⟩

theorem run_allocInterfaces_nil (graph : TypeGraph) (budget : Nat) :
    (allocInterfaces budget []).run.run graph = (.ok [], graph) := by
  cases budget <;> rfl

theorem run_allocInterfaces_skip (budget : Nat) (hd : (graph.interfaceOf? d).isSome) :
    (allocInterfaces (budget + 1) (d :: worklist)).run.run graph =
      (allocInterfaces budget worklist).run.run graph := by
  rw [allocInterfaces, run_bind, run_instanceInterface?]
  simp only [hd, if_true]

theorem run_allocInterfaces_take (budget : Nat) {form : ClassForm TypeId SignatureId}
    (hform : graph.class? d = some form) (hreaches : ∀ base ∈ form.shape.baseTypes, graph.Reaches base)
    (hnone : graph.interfaceOf? d = none) :
    (allocInterfaces (budget + 1) (d :: worklist)).run.run graph =
      ((fun pending => (d, graph.next) :: pending) <$>
        allocInterfaces budget ((form.shape.baseTypes.filterMap graph.classBehind?).reverse ++ worklist)).run.run
        (graph.withView (.instanceInterface d) (.form (.interface (openInterface form)))) := by
  have hnode := class?_eq_some.1 hform
  have hbases := run_filterMapM_baseClass? hreaches
  rw [allocInterfaces, run_bind, run_instanceInterface?, hnone]
  simp only [Option.isSome_none, Bool.false_eq_true, if_false, run_bind, run_lookUp graph hnode, Node.class?,
    TypeForm.class?, hbases, run_add, run_noteInterface, run_map]
  rfl

/-- A view changes nothing about which classes are behind the base types of another. -/
theorem Derives.mem_bases_iff {form : ClassForm TypeId SignatureId} {e : TypeId}
    (h : start.Derives graph opened) (hrange : start.InRange) (hform : start.class? d = some form) :
    e ∈ (form.shape.baseTypes.filterMap graph.classBehind?).reverse ↔ start.Extends d e := by
  rw [← h.extends_iff hrange, Extends, List.mem_reverse, List.mem_filterMap, h.class?, hform]
  simp

end Steps

/-- The loop opens what the worklist leads to, and no budget beyond the base types still to come
changes what it does. -/
theorem run_allocInterfaces (hrange : start.InRange) (hstart : start.size ≤ 0x100000000) (budget : Nat) :
    ∀ (graph : TypeGraph) (opened worklist : List TypeId), start.Derives graph opened →
    Frontier start graph worklist → worklist.length + unopened start graph ≤ budget →
    ((allocInterfaces budget worklist).run.run graph).2.size ≤ 0x100000000 →
    ∃ pending graph', (∀ budget' ≥ budget,
        (allocInterfaces budget' worklist).run.run graph = (.ok pending, graph')) ∧
      start.Derives graph' (pending.map Prod.fst ++ opened) ∧
      Opens start graph worklist pending graph' := by
  induction budget with
  | zero =>
    intro graph opened worklist h hfrontier hbudget _
    obtain rfl : worklist = [] := List.eq_nil_of_length_eq_zero (by omega)
    exact ⟨[], graph, fun budget' _ => run_allocInterfaces_nil graph budget', h, .nil hfrontier⟩
  | succ budget ih =>
    intro graph opened worklist h hfrontier hbudget hsize
    rcases worklist with _ | ⟨d, worklist⟩
    · exact ⟨[], graph, fun budget' _ => run_allocInterfaces_nil graph budget', h, .nil hfrontier⟩
    rw [List.length_cons] at hbudget
    have hmore : ∀ budget' ≥ budget + 1, ∃ budget'' ≥ budget, budget' = budget'' + 1 :=
      fun budget' hle => ⟨budget' - 1, by omega, by omega⟩
    cases hv : graph.interfaceOf? d with
    | some v =>
      have hd : (graph.interfaceOf? d).isSome := by simp [hv]
      rw [run_allocInterfaces_skip budget hd] at hsize
      obtain ⟨pending, graph', hrun, hderives, hopens⟩ :=
        ih graph opened worklist h (hfrontier.skip hd) (by omega) hsize
      refine ⟨pending, graph', fun budget' hbudget' => ?_, hderives, hopens.skip hd⟩
      obtain ⟨budget', hle, rfl⟩ := hmore budget' hbudget'
      rw [run_allocInterfaces_skip budget' hd]
      exact hrun budget' hle
    | none =>
      obtain ⟨form, hform⟩ := Option.isSome_iff_exists.1 (hfrontier.classes d List.mem_cons_self)
      have hform' := (h.class? d).trans hform
      have hreaches : ∀ base ∈ form.shape.baseTypes, graph.Reaches base :=
        fun _ => h.viewed.in_range.reaches_baseType hform'
      have hadds := Adds.instanceInterface hform'
      have hfree : ∀ t, ¬ graph.Derived (.instanceInterface d) t := by simp [hv]
      have hbases := fun e => h.mem_bases_iff (e := e) hrange hform
      have hopened := length_bases_add_unopened_le (.form (.interface (openInterface form))) hstart hform hv
      rw [run_allocInterfaces_take budget hform' hreaches hv, run_map_snd] at hsize
      have hroom := Nat.le_trans (Enlarges.allocInterfaces budget _ _) hsize
      rw [size_withView] at hroom
      obtain ⟨pending, graph', hrun, hderives, hopens⟩ :=
        ih _ _ _ (h.withView hroom hadds hfree) (hfrontier.take hbases)
          (by rw [List.length_append]; omega) hsize
      refine ⟨(d, graph.next) :: pending, graph', fun budget' hbudget' => ?_, hderives.of_mem_iff ?_,
        hopens.take hv hbases⟩
      · obtain ⟨budget', hle, rfl⟩ := hmore budget' hbudget'
        rw [run_allocInterfaces_take budget' hform' hreaches hv, run_map, hrun budget' hle]
      · intro e
        simp only [Origin.opens, List.map_cons, List.mem_append, List.mem_cons, List.not_mem_nil, or_false]
        exact or_left_comm.trans or_assoc.symm

end TypeEnv.TypeGraph
