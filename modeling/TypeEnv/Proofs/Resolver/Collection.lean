import TypeEnv.Proofs.Ident
import TypeEnv.Proofs.Resolver.Operations
import TypeEnv.Proofs.Resolver.Terminals

/-! The state of a resolver while records are taken in. A record that has been mentioned has one
placeholder, a record that is registered has a node that is none, and what the nodes and signatures
refer to are placeholders. Handles are cut down to 32 bits, so a handle stands for an entry of its
arena only as long as the arena has no more entries than there are handles. -/

namespace TypeEnv

/-! ### Entries by their handles -/

namespace TypeGraph

variable (graph : TypeGraph)

/-- Every entry has a handle of its own. -/
structure Addressable : Prop where
  nodes : graph.size ≤ 0x100000000
  signatures : graph.signatureCount ≤ 0x100000000

instance : Decidable graph.Addressable :=
  decidable_of_iff (graph.size ≤ 0x100000000 ∧ graph.signatureCount ≤ 0x100000000)
    ⟨fun h => ⟨h.1, h.2⟩, fun h => ⟨h.nodes, h.signatures⟩⟩

/-- `node` is an entry of the arena and `t` was made of its number. -/
def NodeAt (t : TypeId) (node : Node) : Prop :=
  ∃ i : Nat, t = ⟨i.toUInt32⟩ ∧ graph.nodes[i]? = some node

def SignatureAt (s : SignatureId) (signature : StoredSignature) : Prop :=
  ∃ i : Nat, s = ⟨i.toUInt32⟩ ∧ graph.signatures[i]? = some signature

@[simp] theorem nodes_empty : (∅ : TypeGraph).nodes = #[] := rfl

@[simp] theorem signatures_empty : (∅ : TypeGraph).signatures = #[] := rfl

@[simp] theorem registered?_empty (id : RecordId) : (∅ : TypeGraph).registered? id = none := rfl

variable {graph}

theorem NodeAt.node? {t : TypeId} {node : Node} (h : graph.NodeAt t node)
    (hsize : graph.size ≤ 0x100000000) : graph.node? t = some node := by
  obtain ⟨i, rfl, hi⟩ := h
  have hlt : i < graph.nodes.size := (Array.getElem?_eq_some_iff.1 hi).1
  rw [size] at hsize
  rw [TypeGraph.node?, toNat_toUInt32 (by omega)]
  exact hi

theorem SignatureAt.signature? {s : SignatureId} {signature : StoredSignature}
    (h : graph.SignatureAt s signature) (hcount : graph.signatureCount ≤ 0x100000000) :
    graph.signature? s = some signature := by
  obtain ⟨i, rfl, hi⟩ := h
  have hlt : i < graph.signatures.size := (Array.getElem?_eq_some_iff.1 hi).1
  rw [signatureCount] at hcount
  rw [TypeGraph.signature?, toNat_toUInt32 (by omega)]
  exact hi

end TypeGraph

namespace Resolver

/-! ### Later states -/

/-- `r'` has all that `r` has. -/
structure GrowsTo (r r' : Resolver) : Prop where
  nodes : ∀ t node, r.graph.NodeAt t node → r'.graph.NodeAt t node
  signatures : ∀ s signature, r.graph.SignatureAt s signature → r'.graph.SignatureAt s signature
  placeholders : ∀ (id : RecordId) (t : TypeId),
    r.placeholders[id]? = some t → r'.placeholders[id]? = some t
  registered : ∀ id t, r.graph.registered? id = some t → r'.graph.registered? id = some t

theorem GrowsTo.refl (r : Resolver) : r.GrowsTo r :=
  ⟨fun _ _ h => h, fun _ _ h => h, fun _ _ h => h, fun _ _ h => h⟩

theorem GrowsTo.trans {r r' r'' : Resolver} (h : r.GrowsTo r') (h' : r'.GrowsTo r'') :
    r.GrowsTo r'' where
  nodes t node ht := h'.nodes t node (h.nodes t node ht)
  signatures s signature hs := h'.signatures s signature (h.signatures s signature hs)
  placeholders id t ht := h'.placeholders id t (h.placeholders id t ht)
  registered id t ht := h'.registered id t (h.registered id t ht)

/-- The handle is the placeholder of some record. -/
def Held (r : Resolver) (t : TypeId) : Prop := ∃ id : RecordId, r.placeholders[id]? = some t

/-- What holds as long as only forms are registered. -/
structure Collecting (r : Resolver) : Prop where
  phase : r.phase = .collecting
  placeholder_node : ∀ (id : RecordId) (t : TypeId), r.placeholders[id]? = some t →
    r.graph.NodeAt t (.placeholder id)
  node_placeholder : ∀ (i : Nat) (id : RecordId), r.graph.nodes[i]? = some (.placeholder id) →
    r.placeholders[id]? = some ⟨i.toUInt32⟩
  registered_form : ∀ id t, r.graph.registered? id = some t → ∃ form, r.graph.NodeAt t (.form form)
  registered_inj : r.graph.size ≤ 0x100000000 → ∀ id id' t,
    r.graph.registered? id = some t → r.graph.registered? id' = some t → id = id'
  node_refs : ∀ node ∈ r.graph.nodes, ∀ t ∈ node.typeRefs, r.Held t
  signature_refs : ∀ signature ∈ r.graph.signatures, ∀ t ∈ signature.typeRefs, r.Held t

theorem collecting_new : ({} : Resolver).Collecting where
  phase := rfl
  placeholder_node := by simp
  node_placeholder := by simp
  registered_form := by simp
  registered_inj := by simp
  node_refs := by simp
  signature_refs := by simp

/-! ### Steps -/

variable {r : Resolver} {id : RecordId} {form : TypeForm TypeId SignatureId}
  {signature : StoredSignature}

theorem nodeAt_alloc (graph : TypeGraph) (node : Node) :
    (graph.alloc node).2.NodeAt (graph.alloc node).1 node :=
  ⟨graph.size, rfl, by simp [TypeGraph.alloc, TypeGraph.size]⟩

theorem nodeAt_alloc_of_nodeAt {graph : TypeGraph} (new : Node) {t : TypeId} {node : Node}
    (h : graph.NodeAt t node) : (graph.alloc new).2.NodeAt t node := by
  obtain ⟨i, ht, hi⟩ := h
  refine ⟨i, ht, ?_⟩
  have hlt : i < graph.nodes.size := (Array.getElem?_eq_some_iff.1 hi).1
  rw [TypeGraph.alloc, Array.getElem?_push, if_neg (by omega), hi]

/-- The handle of a new node is that of no other one. -/
theorem ne_alloc_of_nodeAt {graph : TypeGraph} {t : TypeId} {node : Node} (h : graph.NodeAt t node)
    (new : Node) (hsize : (graph.alloc new).2.size ≤ 0x100000000) : t ≠ (graph.alloc new).1 := by
  obtain ⟨i, rfl, hi⟩ := h
  have hlt : i < graph.nodes.size := (Array.getElem?_eq_some_iff.1 hi).1
  simp only [TypeGraph.alloc, TypeGraph.size, Array.size_push] at hsize ⊢
  intro heq
  have hval := congrArg (·.val.toNat) heq
  dsimp only at hval
  rw [toNat_toUInt32 (by omega), toNat_toUInt32 (by omega)] at hval
  omega

theorem placeholders_withPlaceholder (id' : RecordId) :
    (r.withPlaceholder id).placeholders[id']? =
      if id = id' then some (r.graph.alloc (.placeholder id)).1 else r.placeholders[id']? := by
  simp only [withPlaceholder, Std.TreeMap.getElem?_insert, Std.LawfulEqOrd.compare_eq_iff_eq]

theorem placeholder_cases {id' : RecordId} {t : TypeId}
    (h : (r.withPlaceholder id).placeholders[id']? = some t) :
    id' = id ∧ t = (r.graph.alloc (.placeholder id)).1 ∨ r.placeholders[id']? = some t := by
  rw [placeholders_withPlaceholder] at h
  split at h
  · next heq => exact .inl ⟨heq.symm, (Option.some.inj h).symm⟩
  · exact .inr h

theorem growsTo_withPlaceholder (h : r.placeholders[id]? = none) :
    r.GrowsTo (r.withPlaceholder id) where
  nodes _ _ ht := nodeAt_alloc_of_nodeAt _ ht
  signatures _ _ hs := hs
  placeholders id' t ht := by
    have hne : id ≠ id' := by
      rintro rfl
      rw [h] at ht
      cases ht
    rw [placeholders_withPlaceholder, if_neg hne, ht]
  registered _ _ ht := ht

theorem growsTo_withSignature : r.GrowsTo (r.withSignature signature) where
  nodes _ _ ht := ht
  signatures s signature' hs := by
    obtain ⟨i, hs, hi⟩ := hs
    refine ⟨i, hs, ?_⟩
    have hlt : i < r.graph.signatures.size := (Array.getElem?_eq_some_iff.1 hi).1
    rw [withSignature, TypeGraph.allocSignature, Array.getElem?_push, if_neg (by omega), hi]
  placeholders _ _ ht := ht
  registered _ _ ht := ht

theorem registered?_withRegistered (node : Node) (id' : RecordId) :
    (r.withRegistered id node).graph.registered? id' =
      if id = id' then some (r.graph.alloc node).1 else r.graph.registered? id' := by
  simp only [withRegistered, TypeGraph.registered?, Std.TreeMap.getElem?_insert,
    Std.LawfulEqOrd.compare_eq_iff_eq]
  rfl

theorem registered_cases {node : Node} {id' : RecordId} {t : TypeId}
    (h : (r.withRegistered id node).graph.registered? id' = some t) :
    id' = id ∧ t = (r.graph.alloc node).1 ∨ r.graph.registered? id' = some t := by
  rw [registered?_withRegistered] at h
  split at h
  · next heq => exact .inl ⟨heq.symm, (Option.some.inj h).symm⟩
  · exact .inr h

theorem growsTo_withRegistered (node : Node) (h : r.graph.registered? id = none) :
    r.GrowsTo (r.withRegistered id node) where
  nodes _ _ ht := nodeAt_alloc_of_nodeAt _ ht
  signatures _ _ hs := hs
  placeholders _ _ ht := ht
  registered id' t ht := by
    have hne : id ≠ id' := by
      rintro rfl
      rw [h] at ht
      cases ht
    rw [registered?_withRegistered, if_neg hne, ht]

theorem Held.grows {r r' : Resolver} {t : TypeId} (h : r.Held t) (hgrows : r.GrowsTo r') :
    r'.Held t :=
  let ⟨id, hid⟩ := h
  ⟨id, hgrows.placeholders id t hid⟩

namespace Collecting

variable (hr : r.Collecting)

include hr

theorem withPlaceholder (hid : r.placeholders[id]? = none) :
    (r.withPlaceholder id).Collecting where
  phase := hr.phase
  placeholder_node id' t ht := by
    rcases placeholder_cases ht with ⟨rfl, rfl⟩ | ht
    · exact nodeAt_alloc _ _
    · exact nodeAt_alloc_of_nodeAt _ (hr.placeholder_node id' t ht)
  node_placeholder i id' hi := by
    simp only [Resolver.withPlaceholder, TypeGraph.alloc, Array.getElem?_push] at hi ⊢
    split at hi
    · next heq =>
      obtain rfl : id = id' := by simpa using hi
      simp [heq, TypeGraph.size]
    · exact (growsTo_withPlaceholder hid).placeholders _ _ (hr.node_placeholder i id' hi)
  registered_form id' t ht := by
    obtain ⟨form, hform⟩ := hr.registered_form id' t ht
    exact ⟨form, nodeAt_alloc_of_nodeAt _ hform⟩
  registered_inj hsize := hr.registered_inj (by
    simp only [Resolver.withPlaceholder, TypeGraph.alloc, TypeGraph.size, Array.size_push] at hsize
    rw [TypeGraph.size]
    omega)
  node_refs node hnode t ht := by
    rcases Array.mem_push.1 hnode with hnode | rfl
    · exact (hr.node_refs node hnode t ht).grows (growsTo_withPlaceholder hid)
    · cases ht
  signature_refs s hs t ht := (hr.signature_refs s hs t ht).grows (growsTo_withPlaceholder hid)

theorem withSignature (hrefs : ∀ t ∈ signature.typeRefs, r.Held t) :
    (r.withSignature signature).Collecting where
  phase := hr.phase
  placeholder_node := hr.placeholder_node
  node_placeholder := hr.node_placeholder
  registered_form := hr.registered_form
  registered_inj := hr.registered_inj
  node_refs := hr.node_refs
  signature_refs s hs t ht := by
    rcases Array.mem_push.1 hs with hs | rfl
    · exact hr.signature_refs s hs t ht
    · exact hrefs t ht

theorem withRegistered (hrefs : ∀ t ∈ form.typeRefs, r.Held t) :
    (r.withRegistered id (.form form)).Collecting where
  phase := hr.phase
  placeholder_node id' t ht := nodeAt_alloc_of_nodeAt _ (hr.placeholder_node id' t ht)
  node_placeholder i id' hi := by
    simp only [Resolver.withRegistered, TypeGraph.alloc, Array.getElem?_push] at hi
    split at hi
    · simp at hi
    · exact hr.node_placeholder i id' hi
  registered_form id' t ht := by
    rcases registered_cases ht with ⟨-, rfl⟩ | ht
    · exact ⟨form, nodeAt_alloc _ _⟩
    · obtain ⟨form', hform'⟩ := hr.registered_form id' t ht
      exact ⟨form', nodeAt_alloc_of_nodeAt _ hform'⟩
  registered_inj hsize id₁ id₂ t h₁ h₂ := by
    have hnew : ∀ id', r.graph.registered? id' ≠ some (r.graph.alloc (.form form)).1 := by
      intro id' hid'
      obtain ⟨form', hform'⟩ := hr.registered_form id' _ hid'
      exact ne_alloc_of_nodeAt hform' _ hsize rfl
    simp only [Resolver.withRegistered, TypeGraph.alloc, TypeGraph.size, Array.size_push] at hsize
    rcases registered_cases h₁ with ⟨heq₁, ht₁⟩ | h₁ <;> rcases registered_cases h₂ with ⟨heq₂, ht₂⟩ | h₂
    · exact heq₁.trans heq₂.symm
    · exact absurd (ht₁ ▸ h₂) (hnew id₂)
    · exact absurd (ht₂ ▸ h₁) (hnew id₁)
    · exact hr.registered_inj (by rw [TypeGraph.size]; omega) id₁ id₂ t h₁ h₂
  node_refs node hnode t ht := by
    rcases Array.mem_push.1 hnode with hnode | rfl
    · exact hr.node_refs node hnode t ht
    · exact hrefs t ht
  signature_refs := hr.signature_refs

end Collecting

end Resolver

end TypeEnv
