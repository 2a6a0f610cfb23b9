import TypeEnv.Proofs.Graph.Handles
import TypeEnv.Proofs.Reading
import TypeEnv.Proofs.Resolver.Changes
import TypeEnv.Proofs.Resolver.Collection
import Mathlib.Data.Finset.Card
import Mathlib.Logic.Relation
import Mathlib.Order.SuccPred.Relation
import Mathlib.Algebra.Order.SuccPred

/-! Chains of aliases. A record whose node is a placeholder is an alias, and leads on to the record
that is stood in for. A chain of aliases ends at a type, ends at a record that is registered nowhere,
or runs into a circle, and no chain does two of these. A chain with more aliases than there are
registered records passes one of them twice, so following that many is enough to know which, and how
an attempt to end the collection comes out is told by the chains alone. -/

namespace TypeEnv

open Relation

/-! ### Chains of a relation that leads one way -/

section Chains

variable {α : Type} {next : α → α → Prop} (hnext : Relator.RightUnique next) {a b c : α}

/-- Nothing comes after an element that leads nowhere. -/
theorem eq_of_stopped (hb : ∀ c, ¬ next b c) (h : ReflTransGen next b c) : b = c := by
  cases h using ReflTransGen.head_induction_on with
  | refl => rfl
  | head hstep => exact absurd hstep (hb _)

include hnext

/-- A chain stops in one place. -/
theorem stops_unique (hab : ReflTransGen next a b) (hac : ReflTransGen next a c)
    (hb : ∀ d, ¬ next b d) (hc : ∀ d, ¬ next c d) : b = c := by
  rcases ReflTransGen.total_of_right_unique hnext hab hac with hbc | hcb
  · exact eq_of_stopped hb hbc
  · exact (eq_of_stopped hc hcb).symm

/-- What comes after an element of a circle is on the circle. -/
theorem circle_of_reached (hcircle : TransGen next a a) (h : ReflTransGen next a b) :
    TransGen next b b := by
  induction h with
  | refl => exact hcircle
  | tail _ hstep ih =>
    obtain ⟨d, hfirst, hrest⟩ := TransGen.head'_iff.1 ih
    obtain rfl := hnext hfirst hstep
    exact TransGen.tail'_iff.2 ⟨_, hrest, hfirst⟩

/-- A chain that stops runs into no circle. -/
theorem not_circle_of_stopped (hab : ReflTransGen next a b) (hb : ∀ d, ¬ next b d)
    (hac : ReflTransGen next a c) : ¬ TransGen next c c := by
  intro hcircle
  have hcb : ReflTransGen next c b := by
    rcases ReflTransGen.total_of_right_unique hnext hab hac with hbc | hcb
    · exact eq_of_stopped hb hbc ▸ .refl
    · exact hcb
  obtain ⟨d, hd, -⟩ := TransGen.head'_iff.1 (circle_of_reached hnext hcircle hcb)
  exact hb d hd

end Chains

namespace TypeGraph

variable (graph : TypeGraph)

/-- The node of record `id` stands in for record `next`. -/
def AliasOf (id next : RecordId) : Prop :=
  ∃ t, graph.registered? id = some t ∧ graph.node? t = some (.placeholder next)

/-- Any number of aliases in a row. -/
abbrev Aliases : RecordId → RecordId → Prop := ReflTransGen graph.AliasOf

/-- The aliases from `id` end at a record whose node is the type `t`. -/
def EndsAt (id : RecordId) (t : TypeId) : Prop :=
  ∃ last form, graph.Aliases id last ∧ graph.registered? last = some t ∧
    graph.node? t = some (.form form)

/-- Why the aliases from `id` end at no type. -/
inductive Strays (id : RecordId) : ResolveError → Prop where
  /-- They end at a record that is registered nowhere. -/
  | dangling {missing : RecordId} (h : graph.Aliases id missing)
      (hmissing : graph.registered? missing = none) : Strays id (.unresolvedId missing)
  /-- They never leave a circle. -/
  | endless {turn : RecordId} (h : graph.Aliases id turn)
      (hcircle : TransGen graph.AliasOf turn turn) : Strays id (.endlessAlias id)

/-- Whatever is registered is in the arena. -/
def RegistryContained : Prop := ∀ id t, graph.registered? id = some t → graph.Contains t

variable {graph} {id next first : RecordId} {t : TypeId} {hops : Nat}

theorem aliasOf_rightUnique : Relator.RightUnique graph.AliasOf := by
  rintro id next next' ⟨t, ht, hnext⟩ ⟨t', ht', hnext'⟩
  obtain rfl := Option.some.inj (ht.symm.trans ht')
  simpa using hnext.symm.trans hnext'

theorem not_aliasOf_of_none (h : graph.registered? id = none) : ¬ graph.AliasOf id next := by
  rintro ⟨t, ht, -⟩
  cases h.symm.trans ht

theorem not_aliasOf_of_form {form : TypeForm TypeId SignatureId} (h : graph.registered? id = some t)
    (hform : graph.node? t = some (.form form)) : ¬ graph.AliasOf id next := by
  rintro ⟨t', ht', hnext⟩
  obtain rfl := Option.some.inj (h.symm.trans ht')
  cases hform.symm.trans hnext

/-- A record is registered nowhere, or its node is a type, or it is an alias. -/
theorem RegistryContained.cases (h : graph.RegistryContained) (id : RecordId) :
    graph.registered? id = none ∨
      (∃ t form, graph.registered? id = some t ∧ graph.node? t = some (.form form)) ∨
        ∃ next, graph.AliasOf id next := by
  cases hid : graph.registered? id with
  | none => exact .inl rfl
  | some t =>
    obtain ⟨form | next, hnode⟩ := exists_node_of_contains (h id t hid)
    · exact .inr (.inl ⟨t, form, rfl, hnode⟩)
    · exact .inr (.inr ⟨next, t, hid, hnode⟩)

/-! ### No chain comes out in two ways -/

theorem EndsAt.unique {u : TypeId} (h : graph.EndsAt id t) (h' : graph.EndsAt id u) : t = u := by
  obtain ⟨last, form, hlast, ht, hform⟩ := h
  obtain ⟨last', form', hlast', hu, hform'⟩ := h'
  obtain rfl := stops_unique aliasOf_rightUnique hlast hlast' (fun _ => not_aliasOf_of_form ht hform)
    fun _ => not_aliasOf_of_form hu hform'
  exact Option.some.inj (ht.symm.trans hu)

theorem EndsAt.not_strays {error : ResolveError} (h : graph.EndsAt id t) :
    ¬ graph.Strays id error := by
  obtain ⟨last, form, hlast, ht, hform⟩ := h
  have hstop : ∀ next, ¬ graph.AliasOf last next := fun _ => not_aliasOf_of_form ht hform
  rintro (⟨hmissing, hnone⟩ | ⟨hturn, hcircle⟩)
  · obtain rfl := stops_unique aliasOf_rightUnique hlast hmissing hstop fun _ =>
      not_aliasOf_of_none hnone
    cases ht.symm.trans hnone
  · exact not_circle_of_stopped aliasOf_rightUnique hlast hstop hturn hcircle

theorem Strays.unique {error error' : ResolveError} (h : graph.Strays id error)
    (h' : graph.Strays id error') : error = error' := by
  rcases h with @⟨missing, hmissing, hnone⟩ | ⟨hturn, hcircle⟩
  · have hstop : ∀ next, ¬ graph.AliasOf missing next := fun _ => not_aliasOf_of_none hnone
    rcases h' with ⟨hmissing', hnone'⟩ | ⟨hturn, hcircle⟩
    · rw [stops_unique aliasOf_rightUnique hmissing hmissing' hstop fun _ =>
        not_aliasOf_of_none hnone']
    · exact absurd hcircle (not_circle_of_stopped aliasOf_rightUnique hmissing hstop hturn)
  · rcases h' with ⟨hmissing', hnone'⟩ | -
    · exact absurd hcircle (not_circle_of_stopped aliasOf_rightUnique hmissing'
        (fun _ => not_aliasOf_of_none hnone') hturn)
    · rfl

/-! ### Following a chain -/

theorem followAliases_of_none (h : graph.registered? id = none) :
    graph.followAliases first id hops = .error (.unresolvedId id) := by
  rw [followAliases.eq_def, h]

theorem followAliases_of_form {form : TypeForm TypeId SignatureId} (h : graph.registered? id = some t)
    (hform : graph.node? t = some (.form form)) : graph.followAliases first id hops = .ok t := by
  rw [followAliases.eq_def, h]
  simp only [hform]

theorem followAliases_zero (h : graph.AliasOf id next) :
    graph.followAliases first id 0 = .error (.endlessAlias first) := by
  obtain ⟨t, ht, hnext⟩ := h
  rw [followAliases.eq_def, ht]
  simp only [hnext]

theorem followAliases_succ (h : graph.AliasOf id next) :
    graph.followAliases first id (hops + 1) = graph.followAliases first next hops := by
  obtain ⟨t, ht, hnext⟩ := h
  rw [followAliases.eq_def, ht]
  simp only [hnext]

/-- Following at most `hops` aliases finds where they end, or passes more than `hops` of them. -/
theorem RegistryContained.followAliases_cases (hgraph : graph.RegistryContained)
    (first id : RecordId) (hops : Nat) :
    (∃ t, graph.followAliases first id hops = .ok t ∧ graph.EndsAt id t) ∨
      (∃ missing, graph.followAliases first id hops = .error (.unresolvedId missing) ∧
        graph.Aliases id missing ∧ graph.registered? missing = none) ∨
      graph.followAliases first id hops = .error (.endlessAlias first) ∧
        ∃ visit : ℕ → RecordId, visit 0 = id ∧
          ∀ k ≤ hops, graph.AliasOf (visit k) (visit (k + 1)) := by
  induction hops generalizing id with
  | zero =>
    rcases hgraph.cases id with hnone | ⟨t, form, ht, hform⟩ | ⟨next, hnext⟩
    · exact .inr (.inl ⟨id, followAliases_of_none hnone, .refl, hnone⟩)
    · exact .inl ⟨t, followAliases_of_form ht hform, id, form, .refl, ht, hform⟩
    · refine .inr (.inr ⟨followAliases_zero hnext, fun k => if k = 0 then id else next, rfl, ?_⟩)
      intro k hk
      obtain rfl : k = 0 := by omega
      exact hnext
  | succ hops ih =>
    rcases hgraph.cases id with hnone | ⟨t, form, ht, hform⟩ | ⟨next, hnext⟩
    · exact .inr (.inl ⟨id, followAliases_of_none hnone, .refl, hnone⟩)
    · exact .inl ⟨t, followAliases_of_form ht hform, id, form, .refl, ht, hform⟩
    · rw [followAliases_succ hnext]
      rcases ih next with ⟨t, hrun, last, form, hlast, ht⟩ | ⟨missing, hrun, hmissing, hnone⟩ |
        ⟨hrun, visit, hvisit, halias⟩
      · exact .inl ⟨t, hrun, last, form, hlast.head hnext, ht⟩
      · exact .inr (.inl ⟨missing, hrun, hmissing.head hnext, hnone⟩)
      · refine .inr (.inr ⟨hrun, fun k => k.casesOn id visit, rfl, fun k hk => ?_⟩)
        cases k with
        | zero =>
          change graph.AliasOf id (visit 0)
          rwa [hvisit]
        | succ k => exact halias k (by omega)

/-- As many aliases in a row as there are registered records, and one more, run into a circle: one of
the records is passed twice. -/
theorem exists_circle {visit : ℕ → RecordId}
    (halias : ∀ k ≤ hops, graph.AliasOf (visit k) (visit (k + 1)))
    (hhops : graph.registeredCount ≤ hops) :
    ∃ turn, graph.Aliases (visit 0) turn ∧ TransGen graph.AliasOf turn turn := by
  classical
  have hmem : Set.MapsTo visit (Finset.range (hops + 1)) graph.registry.keys.toFinset := by
    intro k hk
    obtain ⟨t, ht, -⟩ := halias k (by simpa [Nat.lt_succ_iff] using hk)
    rw [Finset.mem_coe, List.mem_toFinset, Std.TreeMap.mem_keys,
      Std.TreeMap.mem_iff_isSome_getElem?, Option.isSome_iff_exists]
    exact ⟨t, ht⟩
  have hcard : graph.registry.keys.toFinset.card < (Finset.range (hops + 1)).card := by
    have hkeys := List.toFinset_card_le graph.registry.keys
    rw [Std.TreeMap.length_keys] at hkeys
    rw [Finset.card_range]
    exact Nat.lt_succ_of_le (hkeys.trans hhops)
  have hturn : ∀ i j, i < j → j ≤ hops → visit i = visit j →
      ∃ turn, graph.Aliases (visit 0) turn ∧ TransGen graph.AliasOf turn turn := by
    intro i j hij hj heq
    have hto : ReflTransGen (fun k l => graph.AliasOf (visit k) (visit l)) 0 i :=
      reflTransGen_of_succ_of_le _ (fun k hk => halias k (by have := hk.2; omega)) (Nat.zero_le i)
    have hround : TransGen (fun k l => graph.AliasOf (visit k) (visit l)) i j :=
      transGen_of_succ_of_lt _ (fun k hk => halias k (by have := hk.2; omega)) hij
    refine ⟨visit i, hto.lift visit fun _ _ h => h, ?_⟩
    have hlift : TransGen graph.AliasOf (visit i) (visit j) := hround.lift visit fun _ _ h => h
    rwa [← heq] at hlift
  obtain ⟨i, hi, j, hj, hne, heq⟩ := Finset.exists_ne_map_eq_of_card_lt_of_maps_to hcard hmem
  rw [Finset.mem_range, Nat.lt_succ_iff] at hi hj
  rcases Nat.lt_or_gt_of_ne hne with hij | hij
  · exact hturn i j hij hj heq
  · exact hturn j i hij hi heq.symm

/-! ### The outcome of a chain -/

section Outcome

variable (hgraph : graph.RegistryContained) (hhops : graph.registeredCount ≤ hops)

include hgraph hhops

/-- With a hop for every registered record, following a chain tells how it comes out. -/
theorem RegistryContained.followAliases_eq (id : RecordId) :
    (∃ t, graph.followAliases id id hops = .ok t ∧ graph.EndsAt id t) ∨
      ∃ error, graph.followAliases id id hops = .error error ∧ graph.Strays id error := by
  rcases hgraph.followAliases_cases id id hops with hok | ⟨missing, hrun, hmissing, hnone⟩ |
    ⟨hrun, visit, rfl, halias⟩
  · exact .inl hok
  · exact .inr ⟨_, hrun, .dangling hmissing hnone⟩
  · obtain ⟨turn, hturn, hcircle⟩ := exists_circle halias hhops
    exact .inr ⟨_, hrun, .endless hturn hcircle⟩

theorem RegistryContained.followAliases_eq_ok : graph.followAliases id id hops = .ok t ↔
    graph.EndsAt id t := by
  rcases hgraph.followAliases_eq hhops id with ⟨u, hrun, hu⟩ | ⟨error, hrun, herror⟩
  · rw [hrun, Except.ok.injEq]
    exact ⟨fun heq => heq ▸ hu, hu.unique⟩
  · rw [hrun]
    exact ⟨nofun, fun ht => absurd herror ht.not_strays⟩

theorem RegistryContained.followAliases_eq_error {error : ResolveError} :
    graph.followAliases id id hops = .error error ↔ graph.Strays id error := by
  rcases hgraph.followAliases_eq hhops id with ⟨u, hrun, hu⟩ | ⟨error', hrun, herror'⟩
  · rw [hrun]
    exact ⟨nofun, fun herror => absurd herror hu.not_strays⟩
  · rw [hrun, Except.error.injEq]
    exact ⟨fun heq => heq ▸ herror', herror'.unique⟩

end Outcome

/-! ### The outcome of all chains -/

/-- The first entry at which a search along a list finds something. -/
theorem findSome?_eq_some_iff_getElem? {α β : Type} {f : α → Option β} {l : List α} {b : β} :
    l.findSome? f = some b ↔ ∃ (i : Nat) (a : α), l[i]? = some a ∧ f a = some b ∧
      ∀ j < i, ∀ a', l[j]? = some a' → f a' = none := by
  rw [List.findSome?_eq_some_iff]
  constructor
  · rintro ⟨before, a, after, rfl, ha, hbefore⟩
    refine ⟨before.length, a, by simp, ha, fun j hj a' ha' => hbefore a' ?_⟩
    rw [List.getElem?_append_left hj] at ha'
    exact List.mem_of_getElem? ha'
  · rintro ⟨i, a, hi, ha, hbefore⟩
    obtain ⟨hlt, rfl⟩ := List.getElem?_eq_some_iff.1 hi
    refine ⟨l.take i, l[i], l.drop (i + 1), by simp, ha, ?_⟩
    intro a' ha'
    obtain ⟨j, hj⟩ := List.mem_iff_getElem?.1 ha'
    have hlt' := (List.getElem?_eq_some_iff.1 hj).1
    rw [List.length_take] at hlt'
    rw [List.getElem?_take_of_lt (by omega)] at hj
    exact hbefore j (by omega) a' hj

/-- What is wrong with the aliases that a node leads to. -/
def stray? (graph : TypeGraph) : Node → Option ResolveError
  | .placeholder first => Reading.error? (graph.terminal first)
  | .form _ => none

/-- The first placeholder that leads to no type decides. -/
theorem error?_foldlM_noteTerminal (nodes : List Node) (n : Nat) (table : Std.TreeMap TypeId TypeId) :
    Reading.error? ((nodes.zipIdx n).foldlM graph.noteTerminal table) = nodes.findSome? graph.stray? := by
  induction nodes generalizing n table with
  | nil => rfl
  | cons node nodes ih =>
    rw [List.zipIdx_cons, List.foldlM_cons, List.findSome?_cons]
    cases node with
    | form form => exact ih (n + 1) table
    | placeholder first =>
      rw [stray?, noteTerminal]
      cases graph.terminal first with
      | error error => rfl
      | ok t => exact ih (n + 1) _

theorem error?_terminals : Reading.error? graph.terminals = graph.nodes.toList.findSome? graph.stray? :=
  error?_foldlM_noteTerminal _ _ _

section All

variable (hgraph : graph.RegistryContained)

include hgraph

theorem RegistryContained.stray?_eq_some {node : Node} {error : ResolveError} :
    graph.stray? node = some error ↔ ∃ first, node = .placeholder first ∧ graph.Strays first error := by
  cases node with
  | form form => simp [stray?]
  | placeholder first =>
    rw [stray?, Reading.error?_eq_some, terminal,
      hgraph.followAliases_eq_error (Nat.le_succ _)]
    simp

theorem RegistryContained.stray?_eq_none {node : Node} :
    graph.stray? node = none ↔ ∀ first, node = .placeholder first → ∃ t, graph.EndsAt first t := by
  cases node with
  | form form => simp [stray?]
  | placeholder first =>
    simp only [stray?, Reading.error?_eq_none, terminal,
      hgraph.followAliases_eq_ok (Nat.le_succ _), Node.placeholder.injEq, forall_eq']

/-- Every placeholder has an end if the aliases from each of them lead to a type. -/
theorem RegistryContained.exists_terminals_iff : (∃ table, graph.terminals = .ok table) ↔
    ∀ (i : Nat) first, graph.nodes[i]? = some (.placeholder first) → ∃ t, graph.EndsAt first t := by
  rw [← Reading.error?_eq_none, error?_terminals, List.findSome?_eq_none_iff]
  simp only [hgraph.stray?_eq_none, List.mem_iff_getElem?, Array.getElem?_toList]
  constructor
  · exact fun h i first hi => h _ ⟨i, hi⟩ first rfl
  · rintro h node ⟨i, hi⟩ first rfl
    exact h i first hi

theorem RegistryContained.terminals_eq_error {error : ResolveError} :
    graph.terminals = .error error ↔ ∃ (i : Nat) (first : RecordId),
      graph.nodes[i]? = some (.placeholder first) ∧
      (∀ j < i, ∀ other, graph.nodes[j]? = some (.placeholder other) → ∃ t, graph.EndsAt other t) ∧
      graph.Strays first error := by
  rw [← Reading.error?_eq_some, error?_terminals, findSome?_eq_some_iff_getElem?]
  simp only [hgraph.stray?_eq_some, hgraph.stray?_eq_none, Array.getElem?_toList]
  constructor
  · rintro ⟨i, _, hi, ⟨first, rfl, herror⟩, hbefore⟩
    exact ⟨i, first, hi, fun j hj other hother => hbefore j hj _ hother other rfl, herror⟩
  · rintro ⟨i, first, hi, hbefore, herror⟩
    refine ⟨i, _, hi, ⟨first, rfl, herror⟩, ?_⟩
    rintro j hj _ hother other rfl
    exact hbefore j hj other hother

end All

end TypeGraph

namespace Resolver

open Stateful

/-! ### The end of a collection -/

variable {r r' : Resolver}

/-- As long as records are collected, what is registered is in the arena. -/
theorem Changes.registryContained (h : Changes r r')
    (hr : r.phase = .collecting → r.graph.RegistryContained) :
    r'.phase = .collecting → r'.graph.RegistryContained := by
  have hgrow : ∀ node, r.phase = .collecting → ∀ id t, r.graph.registered? id = some t →
      (r.graph.alloc node).2.Contains t := by
    intro node hphase id t hid
    have hlt := hr hphase id t hid
    simp only [TypeGraph.Contains, TypeGraph.alloc, TypeGraph.size, Array.size_push] at hlt ⊢
    omega
  cases h with
  | @registered id node hphase =>
    intro _ id' t ht
    rcases registered_cases ht with ⟨-, rfl⟩ | ht
    · have hword : r.graph.size.toUInt32.toNat ≤ r.graph.size := Nat.mod_le _ _
      simp only [TypeGraph.Contains, withRegistered, TypeGraph.alloc, TypeGraph.size,
        Array.size_push] at hword ⊢
      omega
    · exact hgrow node hphase id' t ht
  | placeholder hphase => exact fun _ => hgrow _ hphase
  | signature _ hphase => exact fun _ => hr hphase
  | resolved =>
    intro hphase
    cases hphase

theorem registryContained_of_makeCalls (calls : List Call)
    (h : ((makeCalls calls).run {}).2.phase = .collecting) :
    ((makeCalls calls).run {}).2.graph.RegistryContained :=
  preserves_makeCalls (P := fun r => r.phase = .collecting → r.graph.RegistryContained)
    (fun _ _ => Changes.registryContained) calls (fun _ _ _ => nofun) h

/-- How an attempt to end the collection comes out is told by the aliases alone. -/
structure AliasesDecide (r : Resolver) : Prop where
  /-- No look-up on the way is past the end of the arena. -/
  contained : r.graph.RegistryContained
  /-- The collection ends if the aliases from every placeholder, used or not, lead to a type. -/
  ends_iff : (∃ final, finish.run.run r = (.ok (), final)) ↔
    ∀ (i : Nat) first, r.graph.nodes[i]? = some (.placeholder first) → ∃ t, r.graph.EndsAt first t
  /-- Otherwise the first placeholder from which they do not is reported. -/
  fails_iff : ∀ error, finish.run.run r = (.error error, r) ↔ ∃ (i : Nat) (first : RecordId),
    r.graph.nodes[i]? = some (.placeholder first) ∧
    (∀ j < i, ∀ other, r.graph.nodes[j]? = some (.placeholder other) →
      ∃ t, r.graph.EndsAt other t) ∧ r.graph.Strays first error
  /-- Following one alias more than there are registered records, or any number more, finds the end of
  every chain that has one, and of no other. -/
  bound_ok : ∀ hops, r.graph.registeredCount + 1 ≤ hops → ∀ first t,
    r.graph.followAliases first first hops = .ok t ↔ r.graph.EndsAt first t
  bound_error : ∀ hops, r.graph.registeredCount + 1 ≤ hops → ∀ first error,
    r.graph.followAliases first first hops = .error error ↔ r.graph.Strays first error

theorem aliasesDecide_of_contained (hphase : r.phase = .collecting)
    (hgraph : r.graph.RegistryContained) : AliasesDecide r where
  contained := hgraph
  ends_iff := by
    rw [← hgraph.exists_terminals_iff, run_finish, if_neg (ne_resolved hphase)]
    cases r.graph.terminals with
    | error error => exact ⟨nofun, nofun⟩
    | ok table => exact ⟨fun _ => ⟨table, rfl⟩, fun _ => ⟨_, rfl⟩⟩
  fails_iff error := by
    rw [← hgraph.terminals_eq_error, run_finish, if_neg (ne_resolved hphase)]
    cases r.graph.terminals with
    | error error' => exact ⟨fun heq => by cases heq; rfl, fun heq => by cases heq; rfl⟩
    | ok table => exact ⟨nofun, nofun⟩
  bound_ok hops hhops first t := hgraph.followAliases_eq_ok (by omega)
  bound_error hops hhops first error := hgraph.followAliases_eq_error (by omega)

/-- Whatever calls have been made, as long as records are collected the aliases decide whether the
collection can end. -/
theorem aliasesDecide_of_makeCalls (calls : List Call)
    (h : ((makeCalls calls).run {}).2.phase = .collecting) :
    AliasesDecide ((makeCalls calls).run {}).2 :=
  aliasesDecide_of_contained h (registryContained_of_makeCalls calls h)

/-- Two chains that share a tail and end after as many aliases as there can be, and a circle that a
third one runs into. -/
def tailCalls : List Call :=
  [.register ⟨0⟩ (.placeholder ⟨1⟩), .register ⟨1⟩ (.placeholder ⟨2⟩), .register ⟨2⟩ (.form .anonymous),
    .register ⟨5⟩ (.placeholder ⟨1⟩), .resolve ⟨0⟩, .register ⟨7⟩ (.placeholder ⟨8⟩),
    .register ⟨8⟩ (.placeholder ⟨9⟩), .register ⟨9⟩ (.placeholder ⟨8⟩)]

theorem aliasesDecide_tailCalls : ((makeCalls tailCalls).run {}).2.phase = .collecting ∧
    (finish.run.run ((makeCalls tailCalls).run {}).2).1 = .error (.endlessAlias ⟨8⟩) ∧
    AliasesDecide ((makeCalls tailCalls).run {}).2 := by
  have hphase : ((makeCalls tailCalls).run {}).2.phase = .collecting := by decide +kernel
  have hfinish : (finish.run.run ((makeCalls tailCalls).run {}).2).1 = .error (.endlessAlias ⟨8⟩) := by
    decide +kernel
  exact ⟨hphase, hfinish, aliasesDecide_of_makeCalls tailCalls hphase⟩

end Resolver

end TypeEnv
