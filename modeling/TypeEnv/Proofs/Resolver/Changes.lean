import TypeEnv.Proofs.Resolver.Calls

/-! What a call can do to a resolver. A call that is refused does nothing, and neither does one that
looks up what is there already; any other adds one node, one signature or one placeholder, or ends
the collection. What each of these changes preserves holds in every state that calls lead to. -/

namespace TypeEnv.Resolver

open Stateful

variable {r r' : Resolver}

/-- The changes that a call can make. -/
inductive Changes (r : Resolver) : Resolver → Prop where
  | registered {id : RecordId} (node : Node) (hphase : r.phase = .collecting)
      (hid : r.graph.registered? id = none) : Changes r (r.withRegistered id node)
  | placeholder {id : RecordId} (hphase : r.phase = .collecting) (hid : r.placeholders[id]? = none) :
      Changes r (r.withPlaceholder id)
  | signature (signature : StoredSignature) (hphase : r.phase = .collecting) :
      Changes r (r.withSignature signature)
  | resolved {table : Std.TreeMap TypeId TypeId} (hphase : r.phase = .collecting)
      (hends : r.graph.terminals = .ok table) : Changes r (r.resolvedBy table)

/-- A call leaves everything as it was, or makes one of the changes. -/
theorem eq_or_changes_of_perform (call : Call) :
    (call.perform.run.run r).2 = r ∨ r.Changes (call.perform.run.run r).2 := by
  cases call with
  | register id node =>
    rw [Call.perform, run_map_snd, run_register]
    split
    · exact .inl rfl
    · next hphase =>
      split
      · exact .inl rfl
      · next hid =>
        exact .inr (.registered node (collecting_of_ne_resolved hphase) (not_isRegistered_iff.1 hid))
  | resolve id =>
    rw [Call.perform, run_map_snd, run_resolve]
    cases hphase : r.phase with
    | collecting =>
      cases hid : r.placeholders[id]? with
      | some t => exact .inl rfl
      | none => exact .inr (.placeholder hphase hid)
    | resolved =>
      left
      dsimp only
      split <;> rfl
  | addSignature signature =>
    rw [Call.perform, run_map_snd, run_addSignature]
    split
    · exact .inl rfl
    · next hphase => exact .inr (.signature signature (collecting_of_ne_resolved hphase))
  | finish =>
    rw [Call.perform, run_map_snd, run_finish]
    split
    · exact .inl rfl
    · next hphase =>
      cases hends : r.graph.terminals with
      | error error => exact .inl rfl
      | ok table => exact .inr (.resolved (collecting_of_ne_resolved hphase) hends)

/-- What every change preserves holds after any calls. -/
theorem preserves_makeCalls {P : Resolver → Prop} (hchange : ∀ r r', Changes r r' → P r → P r')
    (calls : List Call) (h : P r) : P ((makeCalls calls).run r).2 := by
  induction calls generalizing r with
  | nil => exact h
  | cons call calls ih =>
    rw [makeCalls_cons]
    refine ih ?_
    rcases eq_or_changes_of_perform (r := r) call with heq | hchanges
    · rwa [heq]
    · exact hchange _ _ hchanges h

end TypeEnv.Resolver
