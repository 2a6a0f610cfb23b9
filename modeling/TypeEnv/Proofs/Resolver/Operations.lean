import TypeEnv.Proofs.Stateful
import TypeEnv.Resolver

/-! What the operations of a resolver return and what they leave behind. -/

namespace TypeEnv.Resolver

open Stateful

variable (r : Resolver) (id : RecordId) (node : Node) (signature : StoredSignature)

/-- The resolver with one more node, which is the node of record `id`. -/
def withRegistered : Resolver :=
  let graph := (r.graph.alloc node).2
  { r with graph := { graph with registry := graph.registry.insert id (r.graph.alloc node).1 } }

/-- The resolver with a placeholder for record `id`. -/
def withPlaceholder : Resolver :=
  { r with
    graph := (r.graph.alloc (.placeholder id)).2
    placeholders := r.placeholders.insert id (r.graph.alloc (.placeholder id)).1 }

def withSignature : Resolver := { r with graph := (r.graph.allocSignature signature).2 }

/-- The resolver with every type reference exchanged for what `table` has for it. -/
def resolvedBy (table : Std.TreeMap TypeId TypeId) : Resolver :=
  { r with phase := .resolved, graph := r.graph.mapTypes fun t => table.getD t t }

variable {r} in
theorem ne_resolved (h : r.phase = .collecting) : r.phase ≠ .resolved := by
  rw [h]
  decide

variable {r} in
theorem collecting_of_ne_resolved (h : r.phase ≠ .resolved) : r.phase = .collecting := by
  cases hphase : r.phase with
  | collecting => rfl
  | resolved => exact absurd hphase h

variable {r id} in
theorem not_isRegistered_iff : ¬ r.isRegistered id = true ↔ r.graph.registered? id = none := by
  rw [isRegistered, Std.TreeMap.contains_eq_isSome_getElem?, Option.not_isSome_iff_eq_none]
  rfl

theorem run_add : (add node).run.run r =
    (.ok (r.graph.alloc node).1, { r with graph := (r.graph.alloc node).2 }) := rfl

theorem run_register : (register id node).run.run r =
    if r.phase = .resolved then (.error (.registeredLate id), r)
    else if r.isRegistered id then (.error (.duplicateId id), r)
    else (.ok (r.graph.alloc node).1, r.withRegistered id node) := by
  simp only [register, run_bind, run_get]
  split
  · rfl
  · simp only [run_bind, run_get]
    split
    · rfl
    · simp only [run_bind, run_add, run_modify, run_pure, withRegistered]

theorem run_resolve : (resolve id).run.run r =
    match r.phase with
    | .collecting =>
      match r.placeholders[id]? with
      | some t => (.ok t, r)
      | none => (.ok (r.graph.alloc (.placeholder id)).1, r.withPlaceholder id)
    | .resolved =>
      match r.graph.registered? id with
      | some t => (.ok t, r)
      | none => (.error (.unresolvedId id), r) := by
  simp only [resolve, run_bind, run_get]
  rcases r.phase with _ | _
  · rcases r.placeholders[id]? with _ | t
    · simp only [run_bind, run_add, run_modify, run_pure, withPlaceholder]
    · simp only [run_pure]
  · rcases r.graph.registered? id with _ | t <;> rfl

theorem run_addSignature : (addSignature signature).run.run r =
    if r.phase = .resolved then (.error .signatureLate, r)
    else (.ok (r.graph.allocSignature signature).1, r.withSignature signature) := by
  simp only [addSignature, run_bind, run_get]
  split <;> rfl

theorem run_finish : finish.run.run r =
    if r.phase = .resolved then (.error .resolvedTwice, r)
    else match r.graph.terminals with
      | .error error => (.error error, r)
      | .ok table => (.ok (), r.resolvedBy table) := by
  simp only [finish, run_bind, run_get]
  split
  · rfl
  · simp only [run_bind, run_liftExcept]
    rcases r.graph.terminals with error | table <;> rfl

end TypeEnv.Resolver
