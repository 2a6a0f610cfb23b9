import TypeEnv.Proofs.Graph.Isomorphism
import TypeEnv.Proofs.Record.Rows
import TypeEnv.Proofs.Resolver.Aliases

/-! What ending the collection does to the graph. Every handle is exchanged for the one it leads to: a
placeholder leads on to the node of the record that it stands in for, any other handle to itself. The
handles in nodes, in signatures and in the registry are exchanged alike, everything else stays, and a
handle that was given out for a record is exchanged for the one that the record has from then on. -/

namespace TypeEnv

namespace TypeGraph

/-- Where a handle leads: through placeholders to the first node that is none. A handle that is not
that of a placeholder, or is out of the arena, leads to itself. -/
inductive EndsUpAt (graph : TypeGraph) : TypeId → TypeId → Prop where
  | self {t : TypeId} (ht : ¬ graph.StandsIn t) : EndsUpAt graph t t
  | through {t next u : TypeId} {id : RecordId} (ht : graph.node? t = some (.placeholder id))
      (hid : graph.registered? id = some next) (hnext : EndsUpAt graph next u) : EndsUpAt graph t u

variable {graph : TypeGraph} {t u v : TypeId} {id : RecordId}

theorem EndsUpAt.not_standsIn (h : graph.EndsUpAt t u) : ¬ graph.StandsIn u := by
  induction h with
  | self ht => exact ht
  | through _ _ _ ih => exact ih

theorem EndsUpAt.unique (h : graph.EndsUpAt t u) (h' : graph.EndsUpAt t v) : u = v := by
  induction h with
  | self ht =>
    cases h' with
    | self => rfl
    | through ht' => exact absurd ⟨_, ht'⟩ ht
  | through ht hid _ ih =>
    cases h' with
    | self ht' => exact absurd ⟨_, ht⟩ ht'
    | through ht' hid' hnext' =>
      obtain rfl : _ = _ := Node.placeholder.inj (Option.some.inj (ht.symm.trans ht'))
      obtain rfl := Option.some.inj (hid.symm.trans hid')
      exact ih hnext'

/-- A placeholder leads where the node of its record leads. -/
theorem EndsUpAt.exists_registered (h : graph.EndsUpAt t u) (ht : graph.node? t = some (.placeholder id)) :
    ∃ next, graph.registered? id = some next ∧ graph.EndsUpAt next u := by
  cases h with
  | self hself => exact absurd ⟨id, ht⟩ hself
  | through ht' hid hnext =>
    obtain rfl : _ = _ := Node.placeholder.inj (Option.some.inj (ht.symm.trans ht'))
    exact ⟨_, hid, hnext⟩

theorem EndsAt.exists_registered (h : graph.EndsAt id u) : ∃ t, graph.registered? id = some t := by
  obtain ⟨last, form, haliases, hlast, -⟩ := h
  rcases Relation.ReflTransGen.cases_head haliases with rfl | ⟨_, ⟨t, ht, -⟩, -⟩
  · exact ⟨_, hlast⟩
  · exact ⟨t, ht⟩

theorem EndsAt.endsUpAt (h : graph.EndsAt id u) (hid : graph.registered? id = some t) :
    graph.EndsUpAt t u := by
  obtain ⟨last, form, haliases, hlast, hform⟩ := h
  induction haliases using Relation.ReflTransGen.head_induction_on generalizing t with
  | refl =>
    obtain rfl := Option.some.inj (hid.symm.trans hlast)
    refine .self ?_
    rintro ⟨other, hother⟩
    cases hform.symm.trans hother
  | head halias hrest ih =>
    obtain ⟨t', hid', hnext⟩ := halias
    obtain rfl := Option.some.inj (hid.symm.trans hid')
    have hends : graph.EndsAt _ u := ⟨last, form, hrest, hlast, hform⟩
    obtain ⟨next, hregistered⟩ := hends.exists_registered
    exact .through hnext hregistered (ih hregistered)

theorem node?_of_index (hgraph : graph.Addressable) {i : ℕ} {node : Node}
    (h : graph.nodes[i]? = some node) : graph.node? ⟨i.toUInt32⟩ = some node :=
  NodeAt.node? ⟨i, rfl, h⟩ hgraph.nodes

/-- The table of ends says where every handle leads, also where it says nothing. -/
theorem endsUpAt_iff_getD (hgraph : graph.Addressable) (hcontained : graph.RegistryContained)
    {table : Std.TreeMap TypeId TypeId} (h : graph.terminals = .ok table) (t u : TypeId) :
    graph.EndsUpAt t u ↔ table.getD t t = u := by
  have hleads : graph.EndsUpAt t (table.getD t t) := by
    rw [Std.TreeMap.getD_eq_getD_getElem?]
    rcases htv : table[t]? with _ | v
    · have hself := not_standsIn_getD h t
      rw [Std.TreeMap.getD_eq_getD_getElem?, htv] at hself
      exact .self hself
    · obtain ⟨id, index, hindex, rfl, hend⟩ := leads_of_terminals h htv
      have hends := (hcontained.followAliases_eq_ok (Nat.le_succ _)).1 hend
      obtain ⟨next, hnext⟩ := hends.exists_registered
      exact .through (node?_of_index hgraph hindex) hnext (hends.endsUpAt hnext)
  exact ⟨hleads.unique, fun heq => heq ▸ hleads⟩

end TypeGraph

/-! ### Handles in their places -/

theorem Node.related_mapTypes (f : TypeId → TypeId) (node : Node) :
    node.Related id (f · = ·) (· = ·) (node.mapTypes f) := by
  cases node with
  | form x => exact .form (x.mapTypes_spec f).2
  | placeholder record => exact .placeholder record

theorem Signature.related_mapTypes (f : TypeId → TypeId) (signature : StoredSignature) :
    Signature.Related (f · = ·) (· = ·) signature (signature.mapTypes f) :=
  ⟨signature.mapTypes_header f, rel_eq_self _, forall₂_eq_self _⟩

namespace Resolver

open Stateful

/-! ### Handles that are given out -/

variable {r : Resolver}

/-- While records are collected nothing is lost. -/
theorem growsTo_makeCalls (calls : List Call)
    (h : ((makeCalls calls).run r).2.phase = .collecting) : r.GrowsTo ((makeCalls calls).run r).2 := by
  refine preserves_makeCalls (P := fun r' => r'.phase = .collecting → r.GrowsTo r') ?_ calls
    (fun _ => .refl r) h
  rintro r₁ r₂ hchanges hgrows hphase
  cases hchanges with
  | registered node hphase hid => exact (hgrows hphase).trans (growsTo_withRegistered node hid)
  | placeholder hphase hid => exact (hgrows hphase).trans (growsTo_withPlaceholder hid)
  | signature signature hphase => exact (hgrows hphase).trans growsTo_withSignature
  | resolved => cases hphase

/-- The handle that is noted for a record is that of a placeholder for it. -/
def Noted (r : Resolver) : Prop :=
  ∀ (id : RecordId) (t : TypeId), r.placeholders[id]? = some t → r.graph.NodeAt t (.placeholder id)

theorem noted_makeCalls (calls : List Call)
    (h : ((makeCalls calls).run {}).2.phase = .collecting) : ((makeCalls calls).run {}).2.Noted := by
  refine preserves_makeCalls (P := fun r => r.phase = .collecting → r.Noted) ?_ calls
    (fun _ id t => by simp) h
  rintro r₁ r₂ hchanges hnoted hphase
  cases hchanges with
  | registered node hphase => exact fun id t ht => nodeAt_alloc_of_nodeAt _ (hnoted hphase id t ht)
  | @placeholder id hphase hid =>
    intro id' t ht
    rcases placeholder_cases ht with ⟨rfl, rfl⟩ | ht
    · exact nodeAt_alloc _ _
    · exact nodeAt_alloc_of_nodeAt _ (hnoted hphase id' t ht)
  | signature _ hphase => exact hnoted hphase
  | resolved => cases hphase

/-- A collection that is still going on has not ended before. -/
theorem collecting_of_makeCalls {calls : List Call}
    (h : ((makeCalls calls).run r).2.phase = .collecting) : r.phase = .collecting := by
  refine collecting_of_ne_resolved fun hresolved => ?_
  rw [(makeCalls_resolved hresolved calls).1, hresolved] at h
  cases h

theorem placeholder_of_resolve (hphase : r.phase = .collecting) {id : RecordId} {t : TypeId}
    (h : ((resolve id).run.run r).1 = .ok t) :
    ((resolve id).run.run r).2.placeholders[id]? = some t := by
  rw [run_resolve, hphase] at h ⊢
  cases hid : r.placeholders[id]? with
  | some u =>
    rw [hid] at h
    obtain rfl := Except.ok.inj h
    exact hid
  | none =>
    rw [hid] at h
    obtain rfl := Except.ok.inj h
    exact Std.TreeMap.getElem?_insert_self

/-- A handle that was given out for a record while records are collected is noted for it. -/
theorem placeholder_of_event {calls : List Call} {id : RecordId} {t : TypeId}
    (h : ((makeCalls calls).run r).2.phase = .collecting)
    (hevent : (.resolve id, .ok (.node t)) ∈ ((makeCalls calls).run r).1) :
    ((makeCalls calls).run r).2.placeholders[id]? = some t := by
  induction calls generalizing r with
  | nil => cases hevent
  | cons call calls ih =>
    rw [makeCalls_cons] at h hevent ⊢
    rcases List.mem_cons.1 hevent with heq | hevent
    · obtain ⟨rfl, hanswer⟩ := Prod.mk.inj heq
      have hphase : r.phase = .collecting := by
        rw [← makeCalls_cons] at h
        exact collecting_of_makeCalls h
      refine (growsTo_makeCalls calls h).placeholders id t ?_
      rw [Call.perform, run_map_snd]
      refine placeholder_of_resolve hphase ?_
      rw [Call.perform, run_map] at hanswer
      rcases hrun : (resolve id).run.run r with ⟨error | u, r'⟩
      · simp [hrun] at hanswer
      · simpa [hrun, eq_comm] using hanswer
    · exact ih h hevent

/-! ### The end of the collection -/

/-- How a collection that has seen `events` ends: `s` says where every handle leads, and each is
exchanged for that. -/
structure Settles (events : List Event) (r final : Resolver) (s : TypeId → TypeId) : Prop where
  leads : ∀ t u, r.graph.EndsUpAt t u ↔ s t = u
  size_eq : final.graph.size = r.graph.size
  signatureCount_eq : final.graph.signatureCount = r.graph.signatureCount
  node : ∀ (i : ℕ) node, r.graph.nodes[i]? = some node → ∃ node', final.graph.nodes[i]? = some node' ∧
    node.Related id (s · = ·) (· = ·) node'
  signature : ∀ (i : ℕ) signature, r.graph.signatures[i]? = some signature →
    ∃ signature', final.graph.signatures[i]? = some signature' ∧
      Signature.Related (s · = ·) (· = ·) signature signature'
  registered : ∀ id, final.graph.registered? id = (r.graph.registered? id).map s
  views : final.graph.views = r.graph.views
  idempotent : ∀ t, s (s t) = s t
  /-- A handle that was given out for a record has led to the node that the record now has. -/
  promise : ∀ id t, (.resolve id, .ok (.node t)) ∈ events → (resolve id).run.run final = (.ok (s t), final)

theorem exists_terminals_of_finish {final : Resolver} (h : finish.run.run r = (.ok (), final)) :
    r.phase = .collecting ∧ ∃ table, r.graph.terminals = .ok table ∧ final = r.resolvedBy table := by
  rw [run_finish] at h
  split at h
  · cases h
  · next hphase =>
    refine ⟨collecting_of_ne_resolved hphase, ?_⟩
    cases hends : r.graph.terminals with
    | error error =>
      rw [hends] at h
      cases h
    | ok table =>
      rw [hends] at h
      exact ⟨table, rfl, (Prod.mk.inj h).2.symm⟩

/-- A placeholder is exchanged for the handle that its record has afterwards. -/
theorem run_resolve_resolvedBy {table : Std.TreeMap TypeId TypeId} {id : RecordId} {t : TypeId}
    (hleads : ∀ t u, r.graph.EndsUpAt t u ↔ table.getD t t = u)
    (ht : r.graph.node? t = some (.placeholder id)) :
    (resolve id).run.run (r.resolvedBy table) = (.ok (table.getD t t), r.resolvedBy table) := by
  obtain ⟨next, hnext, hlead⟩ := ((hleads t _).2 rfl).exists_registered ht
  have hregistered : (r.resolvedBy table).graph.registered? id = some (table.getD t t) := by
    rw [resolvedBy, TypeGraph.registered?_mapTypes, hnext, Option.map_some, (hleads _ _).1 hlead]
  have hresolved : (r.resolvedBy table).phase = .resolved := rfl
  rw [run_resolve, hresolved]
  simp only [hregistered]

/-- Whatever calls led to it, a collection that can end, ends by exchanging every handle for the one
that it leads to. -/
theorem settles_of_finish (calls : List Call) (final : Resolver)
    (hfinish : finish.run.run ((makeCalls calls).run {}).2 = (.ok (), final))
    (hgraph : ((makeCalls calls).run {}).2.graph.Addressable) :
    ∃ s, Settles ((makeCalls calls).run {}).1 ((makeCalls calls).run {}).2 final s := by
  obtain ⟨hphase, table, hends, rfl⟩ := exists_terminals_of_finish hfinish
  have hleads := TypeGraph.endsUpAt_iff_getD hgraph (registryContained_of_makeCalls calls hphase) hends
  have hnoted := noted_makeCalls calls hphase
  refine ⟨fun t => table.getD t t, ?_⟩
  exact {
    leads := hleads
    size_eq := by simp [resolvedBy, TypeGraph.mapTypes, TypeGraph.size]
    signatureCount_eq := by simp [resolvedBy, TypeGraph.mapTypes, TypeGraph.signatureCount]
    node := fun i node hnode =>
      ⟨_, by simp [resolvedBy, TypeGraph.mapTypes, hnode], node.related_mapTypes _⟩
    signature := fun i signature hsignature =>
      ⟨_, by simp [resolvedBy, TypeGraph.mapTypes, hsignature], signature.related_mapTypes _⟩
    registered := fun id => TypeGraph.registered?_mapTypes _ _ id
    views := rfl
    idempotent := fun t => (hleads _ _).1 (.self ((hleads t _).2 rfl).not_standsIn)
    promise := fun id t hevent => run_resolve_resolvedBy hleads <|
      (hnoted id t (placeholder_of_event hphase hevent)).node? hgraph.nodes }

theorem run_finish_of_ok (h : (finish.run.run r).1 = .ok ()) :
    finish.run.run r = (.ok (), (finish.run.run r).2) :=
  Prod.ext h rfl

/-- An alias of an alias, an alias that nothing refers to, and a handle that is out of the arena. -/
def settlingCalls : List Call :=
  [.resolve ⟨5⟩, .register ⟨5⟩ (.placeholder ⟨6⟩), .register ⟨6⟩ (.placeholder ⟨7⟩), .resolve ⟨6⟩,
    .register ⟨7⟩ (.form (.union [⟨0⟩, ⟨3⟩, ⟨80⟩])), .register ⟨8⟩ (.placeholder ⟨5⟩),
    .addSignature { header := { returns := ⟨1⟩ }, target := some ⟨40⟩ }]

theorem settles_settlingCalls : ∃ final s,
    finish.run.run ((makeCalls settlingCalls).run {}).2 = (.ok (), final) ∧
    ((makeCalls settlingCalls).run {}).2.graph.Addressable ∧
    Settles ((makeCalls settlingCalls).run {}).1 ((makeCalls settlingCalls).run {}).2 final s := by
  have hok : (finish.run.run ((makeCalls settlingCalls).run {}).2).1 = .ok () := by decide +kernel
  have hgraph : ((makeCalls settlingCalls).run {}).2.graph.Addressable := by decide +kernel
  have hfinish := run_finish_of_ok hok
  obtain ⟨s, hs⟩ := settles_of_finish settlingCalls _ hfinish hgraph
  exact ⟨_, s, hfinish, hgraph, hs⟩

end Resolver

end TypeEnv
