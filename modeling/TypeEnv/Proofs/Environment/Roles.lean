import TypeEnv.Proofs.Environment.Identity
import TypeEnv.Proofs.Environment.Numbering
import TypeEnv.Proofs.Graph.Isomorphism

/-! What the nodes and signatures of a loaded graph are there for. A node stands in for a record, is the
node of one, or is the global node; a signature has a place in a record. Each node and each signature is
told by this alone, so where two graphs have the same of it, their handles are paired off. -/

namespace TypeEnv

/-! ### Labels -/

section Labels

variable {κ κ' α β : Type}

/-- Every element has one label, and no two have the same. -/
structure Labels (H : κ → α → Prop) (s : Set α) : Prop where
  mem : ∀ k a, H k a → a ∈ s
  total : ∀ a ∈ s, ∃ k, H k a
  label_unique : ∀ k k' a, H k a → H k' a → k = k'
  element_unique : ∀ k a a', H k a → H k a' → a = a'

/-- The label of one is the label of the other, relabelled. -/
def Paired (H : κ → α → Prop) (H' : κ' → β → Prop) (e : κ → κ') (a : α) (b : β) : Prop :=
  ∃ k, H k a ∧ H' (e k) b

/-- What has a label is told by the label of its image. -/
theorem Labels.preimage {γ : Type} {H : κ → α → Prop} {s : Set α} (h : Labels H s) {g : γ → α}
    (hg : Function.Injective g) : Labels (fun k c => H k (g c)) {c | g c ∈ s} where
  mem k c hc := h.mem k (g c) hc
  total c hc := h.total (g c) hc
  label_unique k k' c hc hc' := h.label_unique k k' (g c) hc hc'
  element_unique k c c' hc hc' := hg (h.element_unique k (g c) (g c') hc hc')

namespace Labels

variable {H : κ → α → Prop} {H' : κ' → β → Prop} {s : Set α} {t : Set β} {e : κ → κ'} (h : Labels H s)
  (h' : Labels H' t)

include h h'

theorem exists_right (hlabels : ∀ k, (∃ a, H k a) ↔ ∃ b, H' (e k) b) :
    ∀ a ∈ s, ∃ b ∈ t, Paired H H' e a b := by
  intro a ha
  obtain ⟨k, hk⟩ := h.total a ha
  obtain ⟨b, hb⟩ := (hlabels k).1 ⟨a, hk⟩
  exact ⟨b, h'.mem _ b hb, k, hk, hb⟩

theorem exists_left (he : Function.Surjective e) (hlabels : ∀ k, (∃ a, H k a) ↔ ∃ b, H' (e k) b) :
    ∀ b ∈ t, ∃ a ∈ s, Paired H H' e a b := by
  intro b hb
  obtain ⟨k', hk'⟩ := h'.total b hb
  obtain ⟨k, rfl⟩ := he k'
  obtain ⟨a, ha⟩ := (hlabels k).2 ⟨b, hk'⟩
  exact ⟨a, h.mem k a ha, k, ha, hk'⟩

theorem right_unique (a : α) (b b' : β) (hb : Paired H H' e a b) (hb' : Paired H H' e a b') : b = b' := by
  obtain ⟨k, hk, hb⟩ := hb
  obtain ⟨k', hk', hb'⟩ := hb'
  obtain rfl := h.label_unique k k' a hk hk'
  exact h'.element_unique _ b b' hb hb'

theorem left_unique (he : Function.Injective e) (a a' : α) (b : β) (ha : Paired H H' e a b)
    (ha' : Paired H H' e a' b) : a = a' := by
  obtain ⟨k, hk, hb⟩ := ha
  obtain ⟨k', hk', hb'⟩ := ha'
  obtain rfl := he (h'.label_unique _ _ b hb hb')
  exact h.element_unique k a a' hk hk'

end Labels

end Labels

namespace Environment

open Resolver

/-! ### Nodes -/

/-- What a node is there for. -/
inductive Role where
  /-- It stands in for a record. -/
  | placeholder (id : RecordId)
  /-- It is the node of a record. -/
  | record (id : RecordId)
  | global

/-- The handle is that of the node with the role. -/
def Plays (environment : Environment) : Role → TypeId → Prop
  | .placeholder id, t => environment.graph.node? t = some (.placeholder id)
  | .record id, t => environment.graph.registered? id = some t
  | .global, t => t = environment.global

section Nodes

variable {r : Resolver} {table : Std.TreeMap TypeId TypeId} {properties : OrderedMap String TypeId} {t : TypeId}
  {id : RecordId}

theorem nodeAt_placeholder (h : r.graph.NodeAt t (.placeholder id)) :
    (finalGraph r table properties).NodeAt t (.placeholder id) := by
  obtain ⟨i, ht, hi⟩ := h
  refine nodeAt_alloc_of_nodeAt _ ⟨i, ht, ?_⟩
  rw [resolvedBy, TypeGraph.mapTypes, Array.getElem?_map, hi]
  rfl

/-- A node of the final graph is that of an earlier one with its references exchanged, or the last. -/
theorem getElem?_finalGraph {i : Nat} {node : Node} (h : (finalGraph r table properties).nodes[i]? = some node) :
    (∃ old, r.graph.nodes[i]? = some old ∧ node = old.mapTypes fun t => table.getD t t) ∨
      i = r.graph.size ∧ node = globalNode properties := by
  simp only [finalGraph, withGlobal, TypeGraph.alloc, resolvedBy, TypeGraph.mapTypes, Array.getElem?_push,
    Array.size_map, Array.getElem?_map] at h
  split at h
  · next heq => exact .inr ⟨heq, (Option.some.inj h).symm⟩
  · obtain ⟨old, hold, rfl⟩ := Option.map_eq_some_iff.1 h
    exact .inl ⟨old, hold, rfl⟩

variable (hr : r.Collecting) (haddressable : (finalGraph r table properties).Addressable)

include haddressable

theorem size_lt_of_addressable : r.graph.size < 0x100000000 := by
  have hsize := haddressable.nodes
  rw [size_finalGraph] at hsize
  omega

theorem node?_global : (finalGraph r table properties).node? ⟨r.graph.size.toUInt32⟩ =
    some (globalNode properties) := by
  have hnode := nodeAt_alloc (r.resolvedBy table).graph (globalNode properties)
  rw [TypeGraph.alloc, size_resolvedBy] at hnode
  exact TypeGraph.NodeAt.node? hnode haddressable.nodes

include hr

/-- The placeholders that are left are those of the records that were mentioned. -/
theorem node?_placeholder_iff : (finalGraph r table properties).node? t = some (.placeholder id) ↔ r.Named id t := by
  constructor
  · intro h
    rcases getElem?_finalGraph h with ⟨form | id', hold, hnode⟩ | ⟨-, hnode⟩
    · cases hnode
    · obtain rfl : id = id' := by simpa using hnode
      exact t.word_eq ▸ hr.node_placeholder _ id hold
    · cases hnode
  · exact fun h => (nodeAt_placeholder (hr.placeholder_node id t h)).node? haddressable.nodes

theorem toNat_lt_of_registered (h : r.graph.registered? id = some t) : t.val.toNat < r.graph.size := by
  obtain ⟨form, hform⟩ := hr.registered_form id t h
  exact TypeGraph.contains_of_node? (hform.node? (size_le_of_addressable haddressable))

variable (hterminals : r.graph.terminals = .ok table)

include hterminals

theorem node?_ne_placeholder_of_registered {id' : RecordId}
    (h : (finalGraph r table properties).registered? id = some t) :
    (finalGraph r table properties).node? t ≠ some (.placeholder id') := by
  intro hplaceholder
  obtain ⟨form, hnode⟩ := form_of_registered hr hterminals haddressable h
  cases hplaceholder.symm.trans hnode

/-- The node of a record was there before the global one. -/
theorem ne_last_of_registered (h : (finalGraph r table properties).registered? id = some t) :
    t ≠ ⟨r.graph.size.toUInt32⟩ := by
  rintro rfl
  have hregistered := registered?_finalGraph hr hterminals haddressable id
  have hlt := toNat_lt_of_registered hr haddressable (hregistered.symm.trans h)
  rw [toNat_toUInt32 (size_lt_of_addressable haddressable)] at hlt
  exact Nat.lt_irrefl _ hlt

omit haddressable hr hterminals in
theorem plays_global_iff {sections : Sections} :
    (environmentOf (r.resolvedBy table).graph sections properties).Plays .global t ↔
      t = ⟨r.graph.size.toUInt32⟩ := by
  rw [← size_resolvedBy r table]
  rfl

omit hr hterminals in
theorem node?_ne_placeholder_of_global (h : t = ⟨r.graph.size.toUInt32⟩) :
    (finalGraph r table properties).node? t ≠ some (.placeholder id) := by
  subst h
  intro hplaceholder
  cases hplaceholder.symm.trans (node?_global haddressable)

theorem contains_of_plays {sections : Sections} {role : Role}
    (h : (environmentOf (r.resolvedBy table).graph sections properties).Plays role t) :
    (finalGraph r table properties).Contains t := by
  cases role with
  | placeholder id => exact TypeGraph.contains_of_node? h
  | record id =>
    obtain ⟨form, hnode⟩ := form_of_registered hr hterminals haddressable h
    exact TypeGraph.contains_of_node? hnode
  | global => exact TypeGraph.contains_of_node? (plays_global_iff.1 h ▸ node?_global haddressable)

theorem exists_plays (hforms : r.FormsRegistered) (sections : Sections)
    (ht : (finalGraph r table properties).Contains t) :
    ∃ role, (environmentOf (r.resolvedBy table).graph sections properties).Plays role t := by
  obtain ⟨node, hnode⟩ := TypeGraph.exists_node_of_contains ht
  rcases getElem?_finalGraph hnode with ⟨form | id, hold, rfl⟩ | ⟨hlast, -⟩
  · obtain ⟨id, hid⟩ := hforms _ form hold
    exact ⟨.record id, (registered?_finalGraph hr hterminals haddressable id).trans (t.word_eq ▸ hid)⟩
  · exact ⟨.placeholder id, hnode⟩
  · exact ⟨.global, plays_global_iff.2 (by rw [← hlast, t.word_eq])⟩

theorem role_unique {sections : Sections} {role role' : Role}
    (h : (environmentOf (r.resolvedBy table).graph sections properties).Plays role t)
    (h' : (environmentOf (r.resolvedBy table).graph sections properties).Plays role' t) : role = role' := by
  have hregistered := registered?_finalGraph hr hterminals haddressable
  cases role with
  | placeholder id =>
    cases role' with
    | placeholder id' => rw [Node.placeholder.inj (Option.some.inj (h.symm.trans h'))]
    | record id' => exact absurd h (node?_ne_placeholder_of_registered hr haddressable hterminals h')
    | global => exact absurd h (node?_ne_placeholder_of_global haddressable (plays_global_iff.1 h'))
  | record id =>
    cases role' with
    | placeholder id' => exact absurd h' (node?_ne_placeholder_of_registered hr haddressable hterminals h)
    | record id' =>
      rw [hr.registered_inj (size_le_of_addressable haddressable) id id' t ((hregistered id).symm.trans h)
        ((hregistered id').symm.trans h')]
    | global => exact absurd (plays_global_iff.1 h') (ne_last_of_registered hr haddressable hterminals h)
  | global =>
    cases role' with
    | placeholder id' => exact absurd h' (node?_ne_placeholder_of_global haddressable (plays_global_iff.1 h))
    | record id' => exact absurd (plays_global_iff.1 h) (ne_last_of_registered hr haddressable hterminals h')
    | global => rfl

omit hterminals in
theorem plays_unique {sections : Sections} {role : Role} {t' : TypeId}
    (h : (environmentOf (r.resolvedBy table).graph sections properties).Plays role t)
    (h' : (environmentOf (r.resolvedBy table).graph sections properties).Plays role t') : t = t' := by
  cases role with
  | placeholder id =>
    have hid := (node?_placeholder_iff hr haddressable).1 h
    exact Option.some.inj (hid.symm.trans ((node?_placeholder_iff hr haddressable).1 h'))
  | record id => exact Option.some.inj (h.symm.trans h')
  | global => exact h.trans h'.symm

/-- Each node of a loaded graph has a role, and no two have the same. -/
theorem labels_plays (hforms : r.FormsRegistered) (sections : Sections) :
    Labels (environmentOf (r.resolvedBy table).graph sections properties).Plays
      {t | (finalGraph r table properties).Contains t} where
  mem _ _ h := contains_of_plays hr haddressable hterminals h
  total _ ht := exists_plays hr haddressable hterminals hforms sections ht
  label_unique _ _ _ h h' := role_unique hr haddressable hterminals h h'
  element_unique _ _ _ h h' := plays_unique hr haddressable h h'

end Nodes

end Environment

end TypeEnv
