import TypeEnv.Proofs.Resolver.Calls

/-! Calls that a resolver refuses. A refusal leaves everything as it was: the phase, the nodes, the
signatures, the registry and the placeholders. So a run in which some of the refused calls are never
made goes the same way, and a collection that could not end for want of a record ends, once the
record is registered, as if it had never been attempted before. -/

namespace TypeEnv.Resolver

open Stateful

/-- Why a call is refused. -/
inductive Refuses (r : Resolver) : Call → ResolveError → Prop where
  | registered {id : RecordId} {node : Node} (hphase : r.phase = .collecting)
      (hid : r.isRegistered id) : Refuses r (.register id node) (.duplicateId id)
  | registeredLate {id : RecordId} {node : Node} (hphase : r.phase = .resolved) :
      Refuses r (.register id node) (.registeredLate id)
  | unregistered {id : RecordId} (hphase : r.phase = .resolved)
      (hid : r.graph.registered? id = none) : Refuses r (.resolve id) (.unresolvedId id)
  | signatureLate {signature : StoredSignature} (hphase : r.phase = .resolved) :
      Refuses r (.addSignature signature) .signatureLate
  | dangling {id : RecordId} (hphase : r.phase = .collecting)
      (hends : r.graph.terminals = .error (.unresolvedId id)) (hid : r.graph.registered? id = none) :
      Refuses r .finish (.unresolvedId id)
  | endless {first : RecordId} (hphase : r.phase = .collecting)
      (hends : r.graph.terminals = .error (.endlessAlias first)) :
      Refuses r .finish (.endlessAlias first)
  | finishedTwice (hphase : r.phase = .resolved) : Refuses r .finish .resolvedTwice

variable {r : Resolver} {call : Call} {error : ResolveError}

/-! ### One call -/

/-- A refused call says why and does nothing. -/
theorem Refuses.run (h : r.Refuses call error) : call.perform.run.run r = (.error error, r) := by
  cases h with
  | registered hphase hid =>
    rw [Call.perform, run_map, run_register, if_neg (ne_resolved hphase), if_pos hid]
  | registeredLate hphase =>
    rw [Call.perform, run_map, run_register, if_pos hphase]
  | unregistered hphase hid =>
    rw [Call.perform, run_map, run_resolve, hphase]
    simp only [hid]
  | signatureLate hphase =>
    rw [Call.perform, run_map, run_addSignature, if_pos hphase]
  | dangling hphase hends | endless hphase hends =>
    rw [Call.perform, run_map, run_finish, if_neg (ne_resolved hphase), hends]
  | finishedTwice hphase =>
    rw [Call.perform, run_map, run_finish, if_pos hphase]

/-- A call that fails while records are collected. -/
theorem refuses_of_collecting (hphase : r.phase = .collecting)
    (h : (call.perform.run.run r).1 = .error error) : r.Refuses call error := by
  cases call with
  | register id node =>
    rw [Call.perform, run_map, run_register, if_neg (ne_resolved hphase)] at h
    by_cases hid : r.isRegistered id = true
    · rw [if_pos hid] at h
      obtain rfl : ResolveError.duplicateId id = error := by simpa using h
      exact .registered hphase hid
    · rw [if_neg hid] at h
      cases h
  | resolve id =>
    rw [Call.perform, run_map, run_resolve, hphase] at h
    cases hid : r.placeholders[id]? <;> simp [hid] at h
  | addSignature signature =>
    rw [Call.perform, run_map, run_addSignature, if_neg (ne_resolved hphase)] at h
    cases h
  | finish =>
    rw [Call.perform, run_map, run_finish, if_neg (ne_resolved hphase)] at h
    cases hends : r.graph.terminals with
    | ok table => simp [hends] at h
    | error error' =>
      obtain rfl : error' = error := by simpa [hends] using h
      obtain ⟨first, -, hend⟩ := TypeGraph.error_of_terminals hends
      rcases TypeGraph.followAliases_error hend with ⟨id, rfl, hid⟩ | rfl
      · exact .dangling hphase hends hid
      · exact .endless hphase hends

/-- A call that fails once the collection has ended. -/
theorem refuses_of_resolved (hphase : r.phase = .resolved)
    (h : (call.perform.run.run r).1 = .error error) : r.Refuses call error := by
  cases call with
  | register id node =>
    rw [Call.perform, run_map, run_register, if_pos hphase] at h
    obtain rfl : ResolveError.registeredLate id = error := by simpa using h
    exact .registeredLate hphase
  | resolve id =>
    rw [Call.perform, run_map, run_resolve, hphase] at h
    cases hid : r.graph.registered? id with
    | some t => simp [hid] at h
    | none =>
      obtain rfl : ResolveError.unresolvedId id = error := by simpa [hid] using h
      exact .unregistered hphase hid
  | addSignature signature =>
    rw [Call.perform, run_map, run_addSignature, if_pos hphase] at h
    obtain rfl : ResolveError.signatureLate = error := by simpa using h
    exact .signatureLate hphase
  | finish =>
    rw [Call.perform, run_map, run_finish, if_pos hphase] at h
    obtain rfl : ResolveError.resolvedTwice = error := by simpa using h
    exact .finishedTwice hphase

/-- A call that fails is refused for one of the known reasons. -/
theorem refuses_of_error (h : (call.perform.run.run r).1 = .error error) :
    r.Refuses call error := by
  cases hphase : r.phase with
  | collecting => exact refuses_of_collecting hphase h
  | resolved => exact refuses_of_resolved hphase h

/-- When a collection cannot end for want of a record, the record can still be registered. -/
theorem Refuses.register_missing {id : RecordId} (h : r.Refuses .finish (.unresolvedId id))
    (node : Node) :
    (Call.register id node).perform.run.run r =
      (.ok (.node (r.graph.alloc node).1), r.withRegistered id node) := by
  cases h with
  | dangling hphase _ hid =>
    rw [Call.perform, run_map, run_register, if_neg (ne_resolved hphase),
      if_neg (not_isRegistered_iff.2 hid)]

/-! ### Runs -/

/-- The events without some of the refused calls. -/
inductive Purged : List Event → List Event → Prop where
  | nil : Purged [] []
  | keep {event : Event} {events kept : List Event} (h : Purged events kept) :
      Purged (event :: events) (event :: kept)
  | drop {call : Call} {error : ResolveError} {events kept : List Event} (h : Purged events kept) :
      Purged ((call, .error error) :: events) kept

/-- All refused calls can be left out. -/
theorem purged_filter (events : List Event) :
    Purged events (events.filter fun event => event.2.toOption.isSome) := by
  induction events with
  | nil => exact .nil
  | cons event events ih =>
    rcases event with ⟨call, error | answer⟩
    · exact .drop ih
    · exact .keep ih

/-- A run without some of its refused calls gets the same answers and ends in the same state. -/
theorem Purged.run {calls : List Call} {kept : List Event}
    (h : Purged ((makeCalls calls).run r).1 kept) :
    (makeCalls (kept.map Prod.fst)).run r = (kept, ((makeCalls calls).run r).2) := by
  induction calls generalizing r kept with
  | nil =>
    cases h
    rfl
  | cons call calls ih =>
    rw [makeCalls_cons] at h ⊢
    rcases hrun : call.perform.run.run r with ⟨answer, next⟩
    rw [hrun] at h
    cases h with
    | keep h =>
      have hrest := ih h
      rw [List.map_cons, makeCalls_cons, hrun, hrest]
    | drop h =>
      -- the call was refused, so the others start from where it started
      have hnext : next = r := by
        have hrefused := (refuses_of_error (congrArg Prod.fst hrun)).run
        rw [hrun] at hrefused
        exact congrArg Prod.snd hrefused
      rw [hnext] at h ⊢
      exact ih h

/-- An attempt to end the collection for which a record is missing might as well not have been made:
once the record is registered, the next attempt has the same result and leaves the same behind. -/
theorem Refuses.retried {id : RecordId} (h : r.Refuses .finish (.unresolvedId id)) (node : Node) :
    ∃ t answer final,
      (makeCalls [.register id node, .finish]).run r =
        ([(.register id node, .ok (.node t)), (.finish, answer)], final) ∧
      (makeCalls [.finish, .register id node, .finish]).run r =
        ([(.finish, .error (.unresolvedId id)), (.register id node, .ok (.node t)),
          (.finish, answer)], final) := by
  have hregister := h.register_missing node
  rcases hfinish : Call.finish.perform.run.run (r.withRegistered id node) with ⟨answer, final⟩
  refine ⟨(r.graph.alloc node).1, answer, final, ?_, ?_⟩
  · rw [makeCalls_cons, hregister, makeCalls_cons, hfinish]
    rfl
  · rw [makeCalls_cons, h.run, makeCalls_cons, hregister, makeCalls_cons, hfinish]
    rfl

/-- Of a run with these events, which ends at `last`, refused calls are no part. -/
structure ForgetsRefusals (events : List Event) (last : Resolver) : Prop where
  /-- A call that fails changes nothing, and fails for one of the known reasons. -/
  refused : ∀ call error, (call.perform.run.run last).1 = .error error →
    (call.perform.run.run last).2 = last ∧ last.Refuses call error
  /-- All refused calls can be left out, or some of them; nothing else is different then. -/
  purged_all : Purged events (events.filter fun event => event.2.toOption.isSome)
  purged : ∀ kept, Purged events kept → (makeCalls (kept.map Prod.fst)).run {} = (kept, last)
  /-- An attempt to end the collection for which a record is missing might as well not have been made. -/
  retried : ∀ id node, (Call.finish.perform.run.run last).1 = .error (.unresolvedId id) →
    ∃ t answer final,
      (makeCalls [.register id node, .finish]).run last =
        ([(.register id node, .ok (.node t)), (.finish, answer)], final) ∧
      (makeCalls [.finish, .register id node, .finish]).run last =
        ([(.finish, .error (.unresolvedId id)), (.register id node, .ok (.node t)),
          (.finish, answer)], final)
  /-- A resolver that is done stays as it is. -/
  resolved : last.phase = .resolved → ∀ later, ((makeCalls later).run last).2 = last

theorem forgetsRefusals_of_makeCalls (calls : List Call) :
    ForgetsRefusals ((makeCalls calls).run {}).1 ((makeCalls calls).run {}).2 where
  refused call error h := by
    have hrefused := refuses_of_error h
    exact ⟨congrArg Prod.snd hrefused.run, hrefused⟩
  purged_all := purged_filter _
  purged kept h := h.run
  retried id node h := (refuses_of_error h).retried node
  resolved hphase later := (makeCalls_resolved hphase later).1

/-- A run that mentions record 7, which nothing is registered for, and registers record 0 twice. -/
def danglingCalls : List Call :=
  [.resolve ⟨7⟩, .register ⟨0⟩ (.form (.union [⟨0⟩])), .register ⟨0⟩ (.form .anonymous)]

/-- The collection cannot end, and ends once record 7 is registered. -/
theorem forgetsRefusals_danglingCalls :
    (Call.finish.perform.run.run ((makeCalls danglingCalls).run {}).2).1 = .error (.unresolvedId ⟨7⟩) ∧
    ∃ t answer final,
      (makeCalls [.register ⟨7⟩ (.form .anonymous), .finish]).run ((makeCalls danglingCalls).run {}).2 =
        ([(.register ⟨7⟩ (.form .anonymous), .ok (.node t)), (.finish, answer)], final) ∧
      (makeCalls [.finish, .register ⟨7⟩ (.form .anonymous), .finish]).run
          ((makeCalls danglingCalls).run {}).2 =
        ([(.finish, .error (.unresolvedId ⟨7⟩)), (.register ⟨7⟩ (.form .anonymous), .ok (.node t)),
          (.finish, answer)], final) := by
  have hrefused : (Call.finish.perform.run.run ((makeCalls danglingCalls).run {}).2).1 =
      .error (.unresolvedId ⟨7⟩) := rfl
  exact ⟨hrefused,
    (forgetsRefusals_of_makeCalls danglingCalls).retried ⟨7⟩ (.form .anonymous) hrefused⟩

end TypeEnv.Resolver
