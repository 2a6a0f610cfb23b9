import TypeEnv.Proofs.Resolver.Intake

/-! The end of a collection in which only forms were registered. No alias leads on, so a placeholder
leads to the node registered under its number, and the collection ends unless some number that was
mentioned is registered nowhere; the first such number is reported. Exchanging placeholders for
nodes keeps the registry and sends each placeholder to the node of its record. -/

namespace TypeEnv

namespace TypeGraph

/-- The first of `ids` that no node is registered for. -/
def missing? (graph : TypeGraph) (ids : List RecordId) : Option RecordId :=
  ids.find? fun id => (graph.registered? id).isNone

theorem missing?_append (graph : TypeGraph) (ids ids' : List RecordId) :
    graph.missing? (ids ++ ids') = (graph.missing? ids).or (graph.missing? ids') :=
  List.find?_append

theorem missing?_mapTypes (graph : TypeGraph) (f : TypeId → TypeId) (ids : List RecordId) :
    (graph.mapTypes f).missing? ids = graph.missing? ids := by
  simp [missing?]

end TypeGraph

namespace Resolver

theorem missing?_resolvedBy (r : Resolver) (table : Std.TreeMap TypeId TypeId)
    (ids : List RecordId) : (r.resolvedBy table).graph.missing? ids = r.graph.missing? ids :=
  TypeGraph.missing?_mapTypes r.graph _ ids

theorem size_resolvedBy (r : Resolver) (table : Std.TreeMap TypeId TypeId) :
    (r.resolvedBy table).graph.size = r.graph.size := by
  simp [resolvedBy, TypeGraph.mapTypes, TypeGraph.size]

variable {r : Resolver} (hr : r.Collecting) (hsize : r.graph.size ≤ 0x100000000)

include hr hsize

theorem Collecting.terminal_eq (id : RecordId) : r.graph.terminal id =
    match r.graph.registered? id with
    | some t => .ok t
    | none => .error (.unresolvedId id) := by
  rw [TypeGraph.terminal, TypeGraph.followAliases]
  cases hid : r.graph.registered? id with
  | none => rfl
  | some t =>
    obtain ⟨form, hform⟩ := hr.registered_form id t hid
    simp only [hform.node? hsize]

/-- One placeholder after the other, the first whose number is missing is reported. -/
theorem Collecting.foldlM_noteTerminal (nodes : List Node) (n : Nat)
    (table : Std.TreeMap TypeId TypeId) :
    match r.graph.missing? (nodes.filterMap Node.standsFor?) with
    | some id => (nodes.zipIdx n).foldlM r.graph.noteTerminal table = .error (.unresolvedId id)
    | none => ∃ table', (nodes.zipIdx n).foldlM r.graph.noteTerminal table = .ok table' := by
  induction nodes generalizing n table with
  | nil => exact ⟨table, rfl⟩
  | cons node nodes ih =>
    rw [List.zipIdx_cons, List.foldlM_cons]
    cases node with
    | form form => exact ih (n + 1) table
    | placeholder id =>
      have hterminal := hr.terminal_eq hsize id
      simp only [TypeGraph.noteTerminal, List.filterMap_cons, Node.standsFor?, TypeGraph.missing?,
        List.find?_cons, hterminal]
      cases hid : r.graph.registered? id with
      | none => rfl
      | some t => exact ih (n + 1) _

theorem Collecting.terminals_eq :
    match r.graph.missing? r.graph.mentioned with
    | some id => r.graph.terminals = .error (.unresolvedId id)
    | none => ∃ table, r.graph.terminals = .ok table :=
  hr.foldlM_noteTerminal hsize r.graph.nodes.toList 0 ∅

/-! ### What references become -/

variable {table : Std.TreeMap TypeId TypeId} (h : r.graph.terminals = .ok table)

include h

/-- A placeholder gives way to the node registered for its record. -/
theorem Collecting.registered?_of_named {id : RecordId} {t : TypeId} (hid : r.Named id t) :
    r.graph.registered? id = some (table.getD t t) := by
  have hnode := hr.placeholder_node id t hid
  obtain ⟨i, rfl, hi⟩ := hnode
  have hmem := TypeGraph.mem_terminals h hi
  rw [Std.TreeMap.mem_iff_isSome_getElem?, Option.isSome_iff_exists] at hmem
  obtain ⟨u, hu⟩ := hmem
  obtain ⟨id', j, hj, hij, hend⟩ := TypeGraph.leads_of_terminals h hu
  have hsame := (TypeGraph.NodeAt.node? ⟨i, rfl, hi⟩ hsize).symm.trans
    (TypeGraph.NodeAt.node? ⟨j, hij, hj⟩ hsize)
  obtain rfl : id = id' := by simpa using hsame
  rw [Std.TreeMap.getD_eq_getD_getElem?, hu, Option.getD_some]
  rw [hr.terminal_eq hsize] at hend
  cases hid : r.graph.registered? id with
  | none => simp [hid] at hend
  | some t => simpa [hid] using hend

/-- The node of a record stays the node of that record. -/
theorem Collecting.getD_registered {id : RecordId} {t : TypeId}
    (hid : r.graph.registered? id = some t) : table.getD t t = t := by
  obtain ⟨form, hform⟩ := hr.registered_form id t hid
  rw [Std.TreeMap.getD_eq_getD_getElem?]
  cases hu : table[t]? with
  | none => rfl
  | some u =>
    obtain ⟨id', j, hj, htj, -⟩ := TypeGraph.leads_of_terminals h hu
    have hsame := (hform.node? hsize).symm.trans (TypeGraph.NodeAt.node? ⟨j, htj, hj⟩ hsize)
    simp at hsame

theorem Collecting.registered?_resolvedBy (id : RecordId) :
    (r.resolvedBy table).graph.registered? id = r.graph.registered? id := by
  rw [resolvedBy, TypeGraph.registered?_mapTypes]
  cases hid : r.graph.registered? id with
  | none => rfl
  | some t => rw [Option.map_some, hr.getD_registered hsize h hid]

/-- Every reference is to the node of some record. -/
theorem Collecting.registered?_of_held {t : TypeId} (ht : r.Held t) :
    ∃ id, r.graph.registered? id = some (table.getD t t) :=
  let ⟨id, hid⟩ := ht
  ⟨id, hr.registered?_of_named hsize h hid⟩

end Resolver

end TypeEnv
