import TypeEnv.Proofs.OrderedMap
import TypeEnv.Proofs.Resolver.Aliases
import TypeEnv.Proofs.Resolver.Resolution
import TypeEnv.Proofs.Resolver.Steps
import Mathlib.Data.List.TakeWhile

/-! What a resolver holds, told by the calls that it has answered. While records are collected, a record
that a handle is asked for has one placeholder, which every further request returns, and a registered
record has a node of its own, with the value that it was registered with; the arena has no other nodes.
The end of the collection leaves the placeholders and the number of nodes as they are. -/

namespace TypeEnv.Resolver

open Stateful

/-! ### Histories -/

def endsCollection : Event → Bool
  | (.finish, .ok _) => true
  | _ => false

/-- The events up to the end of the collection. -/
def whileCollecting (events : List Event) : List Event :=
  events.takeWhile fun event => !endsCollection event

/-- The records that a handle is asked for, as often as it is. -/
def requested (events : List Event) : List RecordId :=
  events.filterMap fun
    | (.resolve id, _) => some id
    | _ => none

/-- How many records are registered. -/
def registrations (events : List Event) : ℕ :=
  events.countP fun event => event matches (.register .., .ok _)

section Histories

variable {events rest : List Event} {event : Event}

theorem requested_append (events rest : List Event) :
    requested (events ++ rest) = requested events ++ requested rest :=
  List.filterMap_append

theorem registrations_append (events rest : List Event) :
    registrations (events ++ rest) = registrations events + registrations rest :=
  List.countP_append

theorem mem_of_mem_concat {event' : Event} (h : event' ∈ events ++ [event]) (hne : event' ≠ event) :
    event' ∈ events :=
  (List.mem_append.1 h).resolve_right fun hlast => hne (List.mem_singleton.1 hlast)

theorem mem_requested {id : RecordId} : id ∈ requested events ↔ ∃ answer, (.resolve id, answer) ∈ events := by
  rw [requested, List.mem_filterMap]
  constructor
  · rintro ⟨⟨call, answer⟩, hmem, hid⟩
    cases call with
    | resolve id' =>
      obtain rfl := Option.some.inj hid
      exact ⟨answer, hmem⟩
    | register | addSignature | finish => cases hid
  · rintro ⟨answer, hmem⟩
    exact ⟨_, hmem, rfl⟩

theorem whileCollecting_of_unended (h : ∀ event ∈ events, endsCollection event = false) :
    whileCollecting events = events :=
  List.takeWhile_eq_self_iff.2 fun event hevent => by rw [h event hevent, Bool.not_false]

theorem whileCollecting_of_ended (h : ∀ event ∈ events, endsCollection event = false)
    (hevent : endsCollection event = true) : whileCollecting (events ++ event :: rest) = events := by
  rw [whileCollecting, List.takeWhile_append_of_pos fun event hevent => by rw [h event hevent, Bool.not_false],
    List.takeWhile_cons_of_neg (by simp [hevent]), List.append_nil]

end Histories

/-! ### While records are collected -/

/-- What `r` holds is told by `events`, and the collection goes on. -/
structure Recorded (events : List Event) (r : Resolver) : Prop where
  phase : r.phase = .collecting
  unended : ∀ event ∈ events, endsCollection event = false
  answered : ∀ id answer, (.resolve id, answer) ∈ events →
    ∃ t, answer = .ok (.node t) ∧ r.placeholders[id]? = some t
  placeholder : ∀ (id : RecordId) t, r.placeholders[id]? = some t →
    id ∈ requested events ∧ r.graph.NodeAt t (.placeholder id)
  registry : ∀ id t, r.graph.registered? id = some t →
    ∃ node, (.register id node, .ok (.node t)) ∈ events
  registered : ∀ id node t, (.register id node, .ok (.node t)) ∈ events →
    r.graph.registered? id = some t ∧ r.graph.NodeAt t node
  registered_inj : ∀ id id' t, r.graph.registered? id = some t → r.graph.registered? id' = some t → id = id'
  apart : ∀ (id id' : RecordId) t, r.placeholders[id]? = some t → r.graph.registered? id' ≠ some t
  placeholders_size : r.placeholders.size = (requested events).eraseDups.length
  size_eq : r.graph.size = registrations events + r.placeholders.size

/-- The event is a refusal, or about a signature. -/
inductive Idle : Event → Prop where
  | refused {id : RecordId} {node : Node} {error : ResolveError} : Idle (.register id node, .error error)
  | signature {signature : StoredSignature} {answer : Except ResolveError Answer} :
    Idle (.addSignature signature, answer)
  | unended {error : ResolveError} : Idle (.finish, .error error)

theorem recorded_new : Recorded [] {} where
  phase := rfl
  unended := by simp
  answered := by simp
  placeholder := by simp
  registry := by simp
  registered := by simp
  registered_inj := by simp
  apart := by simp
  placeholders_size := rfl
  size_eq := rfl

namespace Recorded

variable {events : List Event} {r : Resolver} {id : RecordId} {t : TypeId} (h : Recorded events r)

include h

theorem nodeAt_of_registered (ht : r.graph.registered? id = some t) : ∃ node, r.graph.NodeAt t node := by
  obtain ⟨node, hevent⟩ := h.registry id t ht
  exact ⟨node, (h.registered id node t hevent).2⟩

theorem ne_alloc_of_registered (ht : r.graph.registered? id = some t) (new : Node)
    (hsize : (r.graph.alloc new).2.size ≤ 0x100000000) : t ≠ (r.graph.alloc new).1 :=
  have ⟨_, hnode⟩ := h.nodeAt_of_registered ht
  ne_alloc_of_nodeAt hnode new hsize

theorem registry_concat (event : Event) (id : RecordId) (t : TypeId)
    (ht : r.graph.registered? id = some t) :
    ∃ node, (.register id node, .ok (.node t)) ∈ events ++ [event] :=
  (h.registry id t ht).imp fun _ hmem => List.mem_append_left _ hmem

theorem not_mem_requested (hid : r.placeholders[id]? = none) : id ∉ requested events := by
  intro hmem
  obtain ⟨answer, hevent⟩ := mem_requested.1 hmem
  obtain ⟨t, -, ht⟩ := h.answered id answer hevent
  simp [hid] at ht

theorem unended_concat {event : Event} (hends : endsCollection event = false) :
    ∀ event' ∈ events ++ [event], endsCollection event' = false := by
  intro event' hmem
  rcases List.mem_append.1 hmem with hmem | hmem
  · exact h.unended event' hmem
  · rw [List.mem_singleton.1 hmem, hends]

theorem idle {event : Event} (hevent : Idle event) : Recorded (events ++ [event]) r := by
  have hends : endsCollection event = false := by cases hevent <;> rfl
  have hrequested : requested [event] = [] := by cases hevent <;> rfl
  have hregistrations : registrations [event] = 0 := by cases hevent <;> rfl
  have hold : ∀ event', ¬ Idle event' → event' ∈ events ++ [event] → event' ∈ events :=
    fun event' hnot hmem => mem_of_mem_concat hmem fun heq => hnot (heq ▸ hevent)
  exact { h with
    unended := h.unended_concat hends
    answered := fun id answer hmem => h.answered id answer (hold _ nofun hmem)
    placeholder := by rw [requested_append, hrequested, List.append_nil]; exact h.placeholder
    registry := h.registry_concat _
    registered := fun id node t hmem => h.registered id node t (hold _ nofun hmem)
    placeholders_size := by rw [requested_append, hrequested, List.append_nil, h.placeholders_size]
    size_eq := by rw [registrations_append, hregistrations, Nat.add_zero, h.size_eq] }

/-- Asking again gives what was given before. -/
theorem resolve_again (hid : r.placeholders[id]? = some t) :
    Recorded (events ++ [(.resolve id, .ok (.node t))]) r := by
  have hmem : id ∈ requested events := (h.placeholder id t hid).1
  have hrequested : (requested (events ++ [(.resolve id, .ok (.node t))])).eraseDups =
      (requested events).eraseDups := by
    rw [requested_append]
    exact (OrderedMap.eraseDups_concat _ _).trans (if_pos hmem)
  exact { h with
    unended := h.unended_concat rfl
    answered := by
      intro id' answer hevent
      rcases List.mem_append.1 hevent with hevent | hevent
      · exact h.answered id' answer hevent
      · cases List.mem_singleton.1 hevent
        exact ⟨t, rfl, hid⟩
    placeholder := fun id' t' ht' => (h.placeholder id' t' ht').imp_left fun hmem => by
      rw [requested_append]
      exact List.mem_append_left _ hmem
    registry := h.registry_concat _
    registered := fun id node t hevent => h.registered id node t (mem_of_mem_concat hevent nofun)
    placeholders_size := by rw [hrequested, h.placeholders_size]
    size_eq := by rw [registrations_append]; exact h.size_eq }

/-- A record that is asked for the first time gets a placeholder. -/
theorem placeholder_new (hid : r.placeholders[id]? = none)
    (hsize : (r.withPlaceholder id).graph.size ≤ 0x100000000) :
    Recorded (events ++ [(.resolve id, .ok (.node (r.graph.alloc (.placeholder id)).1))])
      (r.withPlaceholder id) := by
  have hgrows := growsTo_withPlaceholder hid
  have hself : (r.withPlaceholder id).placeholders[id]? = some (r.graph.alloc (.placeholder id)).1 :=
    Std.TreeMap.getElem?_insert_self
  refine
    { phase := h.phase
      unended := h.unended_concat rfl
      registry := h.registry_concat _
      registered_inj := h.registered_inj
      answered := ?_, placeholder := ?_, registered := ?_, apart := ?_
      placeholders_size := ?_, size_eq := ?_ }
  · intro id' answer hevent
    rcases List.mem_append.1 hevent with hevent | hevent
    · obtain ⟨t, rfl, ht⟩ := h.answered id' answer hevent
      exact ⟨t, rfl, hgrows.placeholders id' t ht⟩
    · cases List.mem_singleton.1 hevent
      exact ⟨_, rfl, hself⟩
  · intro id' t ht
    rw [requested_append]
    rcases placeholder_cases ht with ⟨rfl, rfl⟩ | ht
    · exact ⟨List.mem_append_right _ (List.mem_singleton_self _), nodeAt_alloc _ _⟩
    · exact ⟨List.mem_append_left _ (h.placeholder id' t ht).1, hgrows.nodes _ _ (h.placeholder id' t ht).2⟩
  · intro id' node t hevent
    exact (h.registered id' node t (mem_of_mem_concat hevent nofun)).imp_right (hgrows.nodes _ _)
  · intro id' id'' t ht hregistered
    rcases placeholder_cases ht with ⟨rfl, rfl⟩ | ht
    · exact h.ne_alloc_of_registered hregistered _ hsize rfl
    · exact h.apart id' id'' t ht hregistered
  · rw [requested_append]
    refine (size_insert_of_new _ _ hid).trans ?_
    refine Eq.trans ?_ (congrArg List.length (OrderedMap.eraseDups_concat _ _)).symm
    rw [if_neg (h.not_mem_requested hid), List.length_append, h.placeholders_size]
    rfl
  · have hold := h.size_eq
    have hcount : (r.withPlaceholder id).placeholders.size = r.placeholders.size + 1 :=
      size_insert_of_new _ _ hid
    rw [registrations_append, hcount]
    simp only [withPlaceholder, TypeGraph.alloc, TypeGraph.size, Array.size_push] at hold ⊢
    rw [hold]
    rfl

/-- A record that is registered gets a node, whether it has been asked for or not. -/
theorem registered_new (node : Node) (hid : r.graph.registered? id = none)
    (hsize : (r.withRegistered id node).graph.size ≤ 0x100000000) :
    Recorded (events ++ [(.register id node, .ok (.node (r.graph.alloc node).1))])
      (r.withRegistered id node) := by
  have hgrows := growsTo_withRegistered node hid
  have hself : (r.withRegistered id node).graph.registered? id = some (r.graph.alloc node).1 := by
    rw [registered?_withRegistered, if_pos rfl]
  have hfresh : ∀ id', r.graph.registered? id' ≠ some (r.graph.alloc node).1 :=
    fun id' ht => h.ne_alloc_of_registered ht node hsize rfl
  have hrequested : requested (events ++ [(.register id node, .ok (.node (r.graph.alloc node).1))]) =
      requested events := by rw [requested_append]; exact List.append_nil _
  refine
    { phase := h.phase
      unended := h.unended_concat rfl
      answered := ?_, placeholder := ?_, registry := ?_, registered := ?_, registered_inj := ?_, apart := ?_
      placeholders_size := ?_, size_eq := ?_ }
  · intro id' answer hevent
    exact h.answered id' answer (mem_of_mem_concat hevent nofun)
  · intro id' t ht
    rw [hrequested]
    exact (h.placeholder id' t ht).imp_right (hgrows.nodes _ _)
  · intro id' t ht
    rcases registered_cases ht with ⟨rfl, rfl⟩ | ht
    · exact ⟨node, List.mem_append_right _ (List.mem_singleton_self _)⟩
    · exact h.registry_concat _ id' t ht
  · intro id' node' t hevent
    rcases List.mem_append.1 hevent with hevent | hevent
    · obtain ⟨ht, hnode'⟩ := h.registered id' node' t hevent
      exact ⟨hgrows.registered _ _ ht, hgrows.nodes _ _ hnode'⟩
    · cases List.mem_singleton.1 hevent
      exact ⟨hself, nodeAt_alloc _ _⟩
  · intro id' id'' t ht ht'
    rcases registered_cases ht with ⟨heq, ht⟩ | ht <;> rcases registered_cases ht' with ⟨heq', ht'⟩ | ht'
    · exact heq.trans heq'.symm
    · exact absurd (ht ▸ ht') (hfresh id'')
    · exact absurd (ht' ▸ ht) (hfresh id')
    · exact h.registered_inj id' id'' t ht ht'
  · intro id' id'' t ht hregistered
    rcases registered_cases hregistered with ⟨-, rfl⟩ | hregistered
    · exact ne_alloc_of_nodeAt (h.placeholder id' _ ht).2 node hsize rfl
    · exact h.apart id' id'' t ht hregistered
  · rw [hrequested]
    exact h.placeholders_size
  · have hold := h.size_eq
    rw [registrations_append]
    simp only [withRegistered, TypeGraph.alloc, TypeGraph.size, Array.size_push] at hold ⊢
    rw [hold]
    exact Nat.add_right_comm _ _ 1

/-- A call goes on with the collection or ends it. -/
theorem perform (call : Call) (hsize : (call.perform.run.run r).2.graph.size ≤ 0x100000000) :
    Recorded (events ++ [(call, (call.perform.run.run r).1)]) (call.perform.run.run r).2 ∨
      endsCollection (call, (call.perform.run.run r).1) = true ∧
        ∃ table, r.graph.terminals = .ok table ∧ (call.perform.run.run r).2 = r.resolvedBy table := by
  have hphase := ne_resolved h.phase
  cases call with
  | register id node =>
    left
    rw [Call.perform, run_map, run_register, if_neg hphase] at hsize ⊢
    by_cases hid : r.isRegistered id = true
    · rw [if_pos hid]
      exact h.idle .refused
    · rw [if_neg hid] at hsize ⊢
      exact h.registered_new node (not_isRegistered_iff.1 hid) hsize
  | resolve id =>
    left
    rw [Call.perform, run_map, run_resolve, h.phase] at hsize ⊢
    cases hid : r.placeholders[id]? with
    | some t => exact h.resolve_again hid
    | none =>
      rw [hid] at hsize
      exact h.placeholder_new hid hsize
  | addSignature signature =>
    left
    rw [Call.perform, run_map, run_addSignature, if_neg hphase]
    exact { h.idle .signature with }
  | finish =>
    rw [Call.perform, run_map, run_finish, if_neg hphase]
    cases hends : r.graph.terminals with
    | error error => exact .inl (h.idle .unended)
    | ok table => exact .inr ⟨rfl, table, rfl, rfl⟩

end Recorded

/-! ### Runs -/

theorem size_le_makeCalls (r : Resolver) (calls : List Call) :
    r.graph.size ≤ ((makeCalls calls).run r).2.graph.size := by
  refine preserves_makeCalls (P := fun r' => r.graph.size ≤ r'.graph.size) ?_ calls (Nat.le_refl _)
  intro r₁ r₂ hchanges hle
  refine Nat.le_trans hle ?_
  cases hchanges with
  | registered => simp [withRegistered, TypeGraph.alloc, TypeGraph.size]
  | placeholder => simp [withPlaceholder, TypeGraph.alloc, TypeGraph.size]
  | signature => exact Nat.le_refl _
  | resolved => exact Nat.le_of_eq (size_resolvedBy _ _).symm

theorem registrations_resolved {r : Resolver} (h : r.phase = .resolved) (calls : List Call) :
    registrations ((makeCalls calls).run r).1 = 0 := by
  induction calls with
  | nil => rfl
  | cons call calls ih =>
    rw [makeCalls_cons, (perform_resolved h call).1, ← List.singleton_append, registrations_append, ih]
    cases call with
    | register id node =>
      rw [Call.perform, run_map, run_register, if_pos h]
      rfl
    | resolve | addSignature | finish => rfl

/-- The events say how `r` came about: it is still collecting, or has ended its collection once. -/
inductive Told : List Event → Resolver → Prop where
  | collecting {events : List Event} {r : Resolver} (h : Recorded events r) : Told events r
  | resolved {before rest : List Event} {event : Event} {r : Resolver} {table : Std.TreeMap TypeId TypeId}
      (h : Recorded before r) (hevent : endsCollection event = true) (hrest : registrations rest = 0)
      (hends : r.graph.terminals = .ok table) : Told (before ++ event :: rest) (r.resolvedBy table)

theorem Recorded.told {before : List Event} {r : Resolver} (h : Recorded before r) (calls : List Call)
    (hsize : ((makeCalls calls).run r).2.graph.size ≤ 0x100000000) :
    Told (before ++ ((makeCalls calls).run r).1) ((makeCalls calls).run r).2 := by
  induction calls generalizing before r with
  | nil =>
    rw [← List.append_nil before] at h
    exact .collecting h
  | cons call calls ih =>
    rw [makeCalls_cons] at hsize ⊢
    dsimp only at hsize ⊢
    rcases h.perform call (Nat.le_trans (size_le_makeCalls _ calls) hsize) with
      hnext | ⟨hends, table, hterminals, hnext⟩
    · rw [List.append_cons]
      exact ih hnext hsize
    · have hphase : ((call.perform.run.run r).2).phase = .resolved := by rw [hnext]; rfl
      have hrest := registrations_resolved hphase calls
      rw [(makeCalls_resolved hphase calls).1]
      rw [hnext] at hrest ⊢
      exact .resolved h hends hrest hterminals

/-! ### What every run keeps -/

/-- What `events` tell about the resolver that they leave. -/
structure Consistent (events : List Event) (r : Resolver) : Prop where
  contained : r.graph.RegistryContained
  /-- Who asked for a record while records were collected was given its placeholder. -/
  asked : ∀ id answer, (.resolve id, answer) ∈ whileCollecting events → ∃ t, answer = .ok (.node t) ∧
    r.placeholders[id]? = some t ∧ r.graph.node? t = some (.placeholder id)
  asked_of_placeholder : ∀ (id : RecordId) t, r.placeholders[id]? = some t →
    id ∈ requested (whileCollecting events)
  placeholder_inj : ∀ (id id' : RecordId) t, r.placeholders[id]? = some t → r.placeholders[id']? = some t →
    id = id'
  /-- No placeholder is a node that was made by registering a record, whatever that was. -/
  apart : ∀ (id id' : RecordId) node t, r.placeholders[id]? = some t →
    (.register id' node, .ok (.node t)) ∉ events
  /-- Asking for a record again gives the handle that was given before, registered or not. -/
  kept : r.phase = .collecting → ∀ id t, (.resolve id, .ok (.node t)) ∈ events →
    (resolve id).run.run r = (.ok t, r)
  registered_iff : r.phase = .collecting → ∀ id t, r.graph.registered? id = some t ↔
    ∃ node, (.register id node, .ok (.node t)) ∈ events
  registered_node : r.phase = .collecting → ∀ id node t, (.register id node, .ok (.node t)) ∈ events →
    r.graph.node? t = some node
  registered_inj : r.phase = .collecting → ∀ id id' t, r.graph.registered? id = some t →
    r.graph.registered? id' = some t → id = id'
  size_eq : r.graph.size = registrations events + (requested (whileCollecting events)).eraseDups.length

section Consistent

variable {events : List Event} {r : Resolver}

theorem Recorded.registryContained (h : Recorded events r) (hsize : r.graph.size ≤ 0x100000000) :
    r.graph.RegistryContained := by
  intro id t ht
  obtain ⟨node, hnode⟩ := h.nodeAt_of_registered ht
  exact TypeGraph.contains_of_node? (hnode.node? hsize)

theorem Recorded.placeholder_inj (h : Recorded events r) (hsize : r.graph.size ≤ 0x100000000)
    (id id' : RecordId) (t : TypeId) (ht : r.placeholders[id]? = some t) (ht' : r.placeholders[id']? = some t) :
    id = id' := by
  have hnode := ((h.placeholder id t ht).2).node? hsize
  have hnode' := ((h.placeholder id' t ht').2).node? hsize
  exact Node.placeholder.inj (Option.some.inj (hnode.symm.trans hnode'))

theorem Recorded.consistent (h : Recorded events r) (hsize : r.graph.size ≤ 0x100000000) :
    Consistent events r := by
  have hevents := whileCollecting_of_unended h.unended
  exact {
    contained := h.registryContained hsize
    asked := fun id answer hevent => by
      rw [hevents] at hevent
      obtain ⟨t, hanswer, ht⟩ := h.answered id answer hevent
      exact ⟨t, hanswer, ht, ((h.placeholder id t ht).2).node? hsize⟩
    asked_of_placeholder := fun id t ht => hevents.symm ▸ (h.placeholder id t ht).1
    placeholder_inj := h.placeholder_inj hsize
    apart := fun id id' node t ht hevent => h.apart id id' t ht (h.registered id' node t hevent).1
    kept := fun _ id t hevent => by
      obtain ⟨u, hanswer, hu⟩ := h.answered id _ hevent
      obtain rfl := Answer.node.inj (Except.ok.inj hanswer)
      rw [run_resolve, h.phase]
      simp only [hu]
    registered_iff := fun _ id t =>
      ⟨h.registry id t, fun ⟨node, hevent⟩ => (h.registered id node t hevent).1⟩
    registered_node := fun _ id node t hevent => ((h.registered id node t hevent).2).node? hsize
    registered_inj := fun _ => h.registered_inj
    size_eq := by rw [hevents, ← h.placeholders_size, h.size_eq] }

theorem contains_getD {graph : TypeGraph} (hcontained : graph.RegistryContained)
    {table : Std.TreeMap TypeId TypeId} (hends : graph.terminals = .ok table) {t : TypeId}
    (ht : graph.Contains t) : graph.Contains (table.getD t t) := by
  rw [Std.TreeMap.getD_eq_getD_getElem?]
  rcases htu : table[t]? with _ | u
  · exact ht
  · obtain ⟨id, index, -, -, hend⟩ := TypeGraph.leads_of_terminals hends htu
    obtain ⟨last, form, -, -, hform⟩ := (hcontained.followAliases_eq_ok (Nat.le_succ _)).1 hend
    exact TypeGraph.contains_of_node? hform

/-- The end of the collection exchanges what nodes refer to, and no placeholder refers to anything. -/
theorem Recorded.consistent_resolved (h : Recorded events r) (hsize : r.graph.size ≤ 0x100000000)
    {table : Std.TreeMap TypeId TypeId} (hends : r.graph.terminals = .ok table) {event : Event}
    (hevent : endsCollection event = true) {rest : List Event} (hrest : registrations rest = 0) :
    Consistent (events ++ event :: rest) (r.resolvedBy table) := by
  have hevents : whileCollecting (events ++ event :: rest) = events := whileCollecting_of_ended h.unended hevent
  have hregister : ∀ id node t, (Call.register id node, .ok (.node t)) ∈ events ++ event :: rest →
      (Call.register id node, .ok (.node t)) ∈ events := by
    intro id node t hmem
    refine (List.mem_append.1 hmem).resolve_right fun hlater => ?_
    rcases List.mem_cons.1 hlater with rfl | hlater
    · cases hevent
    · exact List.countP_eq_zero.1 hrest _ hlater rfl
  have hsize' := size_resolvedBy r table
  exact {
    contained := by
      intro id t ht
      rw [resolvedBy, TypeGraph.registered?_mapTypes, Option.map_eq_some_iff] at ht
      obtain ⟨u, hu, rfl⟩ := ht
      have hcontained := h.registryContained hsize
      rw [TypeGraph.Contains, hsize']
      exact contains_getD hcontained hends (hcontained id u hu)
    asked := fun id answer hevent => by
      rw [hevents] at hevent
      obtain ⟨t, hanswer, ht⟩ := h.answered id answer hevent
      refine ⟨t, hanswer, ht, ?_⟩
      rw [resolvedBy, TypeGraph.node?_mapTypes, ((h.placeholder id t ht).2).node? hsize]
      rfl
    asked_of_placeholder := fun id t ht => hevents.symm ▸ (h.placeholder id t ht).1
    placeholder_inj := h.placeholder_inj hsize
    apart := fun id id' node t ht hevent => h.apart id id' t ht (h.registered id' node t (hregister _ _ _ hevent)).1
    kept := nofun
    registered_iff := nofun
    registered_node := nofun
    registered_inj := nofun
    size_eq := by
      have hends : registrations [event] = 0 := by
        obtain ⟨call, answer⟩ := event
        cases call with
        | finish => rfl
        | register | resolve | addSignature => cases hevent
      rw [hsize', hevents, ← List.singleton_append, registrations_append, registrations_append, hends, hrest,
        ← h.placeholders_size, h.size_eq]
      rfl }

end Consistent

/-- Whatever calls a resolver has answered or refused, they tell what it holds. -/
theorem consistent_of_makeCalls (calls : List Call)
    (hsize : ((makeCalls calls).run {}).2.graph.size ≤ 0x100000000) :
    Consistent ((makeCalls calls).run {}).1 ((makeCalls calls).run {}).2 := by
  have htold := recorded_new.told calls hsize
  rw [List.nil_append] at htold
  generalize ((makeCalls calls).run {}).1 = events, ((makeCalls calls).run {}).2 = r at htold hsize
  cases htold with
  | collecting h => exact h.consistent hsize
  | resolved h hevent hrest hends =>
    rw [size_resolvedBy] at hsize
    exact h.consistent_resolved hsize hends hevent hrest

/-- A record is asked for before and after it is registered, as a placeholder for another one and again
in vain, and after the collection has ended. -/
def askingCalls : List Call :=
  [.resolve ⟨3⟩, .register ⟨3⟩ (.placeholder ⟨4⟩), .resolve ⟨3⟩, .register ⟨3⟩ (.form .anonymous), .finish,
    .register ⟨4⟩ (.form (.union [⟨0⟩, ⟨9⟩])), .resolve ⟨4⟩, .resolve ⟨3⟩, .finish, .resolve ⟨4⟩, .resolve ⟨8⟩]

theorem consistent_askingCalls : ((makeCalls askingCalls).run {}).2.graph.size = 4 ∧
    Consistent ((makeCalls askingCalls).run {}).1 ((makeCalls askingCalls).run {}).2 := by
  have hsize : ((makeCalls askingCalls).run {}).2.graph.size = 4 := by decide +kernel
  exact ⟨hsize, consistent_of_makeCalls askingCalls (by rw [hsize]; decide)⟩

end TypeEnv.Resolver
