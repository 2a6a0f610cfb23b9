import TypeEnv.Proofs.Resolver.Operations
import TypeEnv.Proofs.Resolver.Terminals

/-! Runs of a resolver: any operations in any order, those that fail included. While records are
collected no graph is handed out; the first call that ends the collection leaves a settled graph, and
no call after it changes anything or succeeds in ending the collection again. -/

namespace TypeEnv.Resolver

open Stateful

/-- A call of an operation. -/
inductive Call where
  | register (id : RecordId) (node : Node)
  | resolve (id : RecordId)
  | addSignature (signature : StoredSignature)
  | finish
  deriving DecidableEq

inductive Answer where
  | node (id : TypeId)
  | signature (id : SignatureId)
  | done
  deriving DecidableEq

def Call.perform : Call → Resolving Answer
  | register id node => .node <$> Resolver.register id node
  | resolve id => .node <$> Resolver.resolve id
  | addSignature signature => .signature <$> Resolver.addSignature signature
  | finish => (fun _ => .done) <$> Resolver.finish

/-- A call and what came of it. -/
abbrev Event := Call × Except ResolveError Answer

/-- Makes the calls one after the other, going on after those that fail. -/
def makeCalls (calls : List Call) : StateM Resolver (List Event) :=
  calls.mapM fun call => return (call, ← call.perform.run)

/-- How often the collection was ended. -/
def endings (events : List Event) : Nat :=
  events.countP fun event => event matches (.finish, .ok _)

theorem endings_cons (event : Event) (events : List Event) :
    endings (event :: events) = endings [event] + endings events := by
  rw [endings, ← List.singleton_append, List.countP_append]
  rfl

variable {r : Resolver}

theorem makeCalls_cons (call : Call) (calls : List Call) :
    (makeCalls (call :: calls)).run r =
      ((call, (call.perform.run.run r).1) :: ((makeCalls calls).run (call.perform.run.run r).2).1,
        ((makeCalls calls).run (call.perform.run.run r).2).2) := by
  simp only [makeCalls, List.mapM_cons]
  rfl

/-! ### One call -/

/-- Once resolved, a resolver never changes again. -/
theorem perform_resolved (h : r.phase = .resolved) (call : Call) :
    (call.perform.run.run r).2 = r ∧ endings [(call, (call.perform.run.run r).1)] = 0 := by
  cases call with
  | register id node =>
    rw [Call.perform, run_map, run_register, if_pos h]
    exact ⟨rfl, rfl⟩
  | resolve id =>
    rw [Call.perform, run_map, run_resolve, h]
    cases r.graph.registered? id <;> exact ⟨rfl, rfl⟩
  | addSignature signature =>
    rw [Call.perform, run_map, run_addSignature, if_pos h]
    exact ⟨rfl, rfl⟩
  | finish =>
    rw [Call.perform, run_map, run_finish, if_pos h]
    exact ⟨rfl, rfl⟩

/-- While records are collected, a call either lets the collection go on or ends it. -/
theorem perform_collecting (h : r.phase = .collecting) (call : Call) :
    let event := (call, (call.perform.run.run r).1)
    let next := (call.perform.run.run r).2
    (next.phase = .collecting ∧ endings [event] = 0) ∨
      (next.phase = .resolved ∧ endings [event] = 1 ∧ next.graph.Settled) := by
  have hphase : r.phase ≠ .resolved := by simp [h]
  cases call with
  | register id node =>
    left
    rw [Call.perform, run_map, run_register, if_neg hphase]
    cases r.isRegistered id <;> exact ⟨h, rfl⟩
  | resolve id =>
    left
    rw [Call.perform, run_map, run_resolve, h]
    cases r.placeholders[id]? <;> exact ⟨h, rfl⟩
  | addSignature signature =>
    left
    rw [Call.perform, run_map, run_addSignature, if_neg hphase]
    exact ⟨h, rfl⟩
  | finish =>
    rw [Call.perform, run_map, run_finish, if_neg hphase]
    cases hends : r.graph.terminals with
    | error error => exact .inl ⟨h, rfl⟩
    | ok table => exact .inr ⟨rfl, rfl, TypeGraph.settled_mapTypes hends⟩

/-! ### Runs -/

theorem makeCalls_resolved (h : r.phase = .resolved) (calls : List Call) :
    ((makeCalls calls).run r).2 = r ∧ endings ((makeCalls calls).run r).1 = 0 := by
  induction calls with
  | nil => exact ⟨rfl, rfl⟩
  | cons call calls ih =>
    obtain ⟨hnext, hevent⟩ := perform_resolved h call
    rw [makeCalls_cons, hnext]
    refine ⟨ih.1, ?_⟩
    rw [endings_cons, hevent, ih.2]

theorem makeCalls_collecting (h : r.phase = .collecting) (calls : List Call) :
    let events := ((makeCalls calls).run r).1
    let last := ((makeCalls calls).run r).2
    (last.phase = .collecting ∧ endings events = 0) ∨
      (last.phase = .resolved ∧ endings events = 1 ∧ last.graph.Settled) := by
  induction calls generalizing r with
  | nil => exact .inl ⟨h, rfl⟩
  | cons call calls ih =>
    simp only [makeCalls_cons]
    rw [endings_cons]
    rcases perform_collecting h call with ⟨hnext, hevent⟩ | ⟨hnext, hevent, hsettled⟩
    · rw [hevent, Nat.zero_add]
      exact ih hnext
    · obtain ⟨hlast, hrest⟩ := makeCalls_resolved hnext calls
      right
      rw [hevent, hrest, hlast]
      exact ⟨hnext, rfl, hsettled⟩

/-- If a run of a new resolver leaves a graph to hand out, the collection was ended exactly once in
it, and the graph is settled. -/
theorem settled_of_toGraph (calls : List Call) (graph : TypeGraph)
    (h : ((makeCalls calls).run {}).2.toGraph = .ok graph) :
    endings ((makeCalls calls).run {}).1 = 1 ∧ graph.Settled := by
  have hstart : ({} : Resolver).phase = .collecting := rfl
  rcases makeCalls_collecting hstart calls with ⟨hphase, -⟩ | ⟨hphase, hevents, hsettled⟩
  · simp [toGraph, hphase] at h
  · obtain rfl : _ = graph := by simpa [toGraph, hphase] using h
    exact ⟨hevents, hsettled⟩

/-- A run with calls that fail, an alias of an alias and handles out of range. -/
def aliasCalls : List Call :=
  [.resolve ⟨5⟩, .finish, .register ⟨5⟩ (.placeholder ⟨6⟩), .register ⟨6⟩ (.placeholder ⟨7⟩),
    .register ⟨5⟩ (.form .anonymous), .register ⟨7⟩ (.form (.union [⟨0⟩, ⟨1⟩, ⟨80⟩])),
    .addSignature { header := { returns := ⟨0⟩ }, target := some ⟨40⟩ }, .finish, .finish,
    .resolve ⟨5⟩]

theorem settled_aliasCalls : ∃ graph, ((makeCalls aliasCalls).run {}).2.toGraph = .ok graph ∧
    endings ((makeCalls aliasCalls).run {}).1 = 1 ∧ graph.Settled :=
  ⟨_, rfl, settled_of_toGraph aliasCalls _ rfl⟩

end TypeEnv.Resolver
