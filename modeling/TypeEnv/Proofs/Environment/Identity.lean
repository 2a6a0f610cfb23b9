import TypeEnv.Proofs.Environment.Loading

/-! What a loaded graph says of its document. The node of a record is the record as it reads by itself,
with each number replaced by the node of the record of that number; so two references are to the same
node exactly when they name the same record. -/

namespace TypeEnv

open Resolver

/-! ### References of signature trees -/

/-- A reference of a tree stored at `s`, or of a signature inside it, that names `id` and holds `t`. -/
inductive SignatureTree.Slot (graph : TypeGraph) :
    SignatureTree RecordId → SignatureId → RecordId → TypeId → Prop where
  | header {header target unions s signature id t} (i : Nat) :
    graph.signature? s = some signature → header.typeRefs[i]? = some id →
    signature.header.typeRefs[i]? = some t → Slot graph (.node header target unions) s id t
  | target {header tree unions s signature s' id t} :
    graph.signature? s = some signature → signature.target = some s' → Slot graph tree s' id t →
    Slot graph (.node header (some tree) unions) s id t
  | union {header target unions tree s signature s' id t} (i : Nat) :
    graph.signature? s = some signature → unions[i]? = some tree →
    signature.unionSignatures[i]? = some s' → Slot graph tree s' id t →
    Slot graph (.node header target unions) s id t

theorem SignatureTree.forall₂_of_listBecomes {α β ρ : Type} {A : α → β → Prop}
    {made : Signature β ρ → ρ → Prop} {trees : List (SignatureTree α)} {ss : List ρ}
    (h : listBecomes A made trees ss) : List.Forall₂ (Becomes A made) trees ss := by
  induction trees generalizing ss with
  | nil => exact h ▸ .nil
  | cons tree trees ih =>
    obtain ⟨s, rest, rfl, hs, hrest⟩ := h
    exact .cons hs (ih hrest)

/-- The relation of a tree to what it becomes reaches all its references. -/
theorem SignatureTree.Slot.of_becomes {graph : TypeGraph} {A : RecordId → TypeId → Prop}
    {tree : SignatureTree RecordId} {s : SignatureId} {id : RecordId} {t : TypeId}
    (hslot : Slot graph tree s id t)
    (h : tree.Becomes A (fun signature s => graph.signature? s = some signature) s) : A id t := by
  induction hslot with
  | header i hs hid ht =>
    obtain ⟨signature', hs', hheader, -, -⟩ := h
    obtain rfl := Option.some.inj (hs.symm.trans hs')
    exact getElem?_of_forall₂ hheader.typeRefs hid ht
  | target hs htarget _ ih =>
    obtain ⟨signature', hs', -, htarget', -⟩ := h
    obtain rfl := Option.some.inj (hs.symm.trans hs')
    obtain ⟨s'', hs'', hbecomes⟩ := htarget'
    obtain rfl := Option.some.inj (htarget.symm.trans hs'')
    exact ih hbecomes
  | union i hs htree hunion _ ih =>
    obtain ⟨signature', hs', -, -, hunions⟩ := h
    obtain rfl := Option.some.inj (hs.symm.trans hs')
    exact ih (getElem?_of_forall₂ (forall₂_of_listBecomes hunions) htree hunion)

/-! ### The graph of the nodes of a document -/

namespace Environment

/-- In `graph`, `form` is the form of `record`: each number in it is replaced by the node registered
for it, each signature by the handle it is stored at, and nothing else is changed. -/
def Says (graph : TypeGraph) (record : NestedRecord RecordId) (form : TypeForm TypeId SignatureId) :
    Prop :=
  record.form.Related (fun id t => graph.registered? id = some t)
    (SignatureTree.Becomes (fun id t => graph.registered? id = some t)
      fun signature s => graph.signature? s = some signature) form

/-- The graph that a load ends with. -/
def finalGraph (r : Resolver) (table : Std.TreeMap TypeId TypeId)
    (properties : OrderedMap String TypeId) : TypeGraph :=
  withGlobal (r.resolvedBy table).graph properties

section Final

variable {r : Resolver} {table : Std.TreeMap TypeId TypeId} {properties : OrderedMap String TypeId}

theorem nodeAt_finalGraph {t : TypeId} {form : TypeForm TypeId SignatureId}
    (h : r.graph.NodeAt t (.form form)) : (finalGraph r table properties).NodeAt t
      (.form (form.mapTypes fun t => table.getD t t)) := by
  obtain ⟨i, ht, hi⟩ := h
  refine nodeAt_alloc_of_nodeAt _ ⟨i, ht, ?_⟩
  simp [resolvedBy, TypeGraph.mapTypes, hi]

theorem signatureAt_finalGraph {s : SignatureId} {signature : StoredSignature}
    (h : r.graph.SignatureAt s signature) : (finalGraph r table properties).SignatureAt s
      (signature.mapTypes fun t => table.getD t t) := by
  obtain ⟨i, hs, hi⟩ := h
  exact ⟨i, hs, by
    simp [finalGraph, withGlobal, TypeGraph.alloc, resolvedBy, TypeGraph.mapTypes, hi]⟩

theorem size_finalGraph : (finalGraph r table properties).size = r.graph.size + 1 := by
  rw [finalGraph, size_withGlobal, size_resolvedBy]

variable (hr : r.Collecting) (hterminals : r.graph.terminals = .ok table)
  (haddressable : (finalGraph r table properties).Addressable)

include hr hterminals haddressable

omit hr hterminals in
theorem size_le_of_addressable : r.graph.size ≤ 0x100000000 := by
  have hsize := haddressable.nodes
  rw [size_finalGraph] at hsize
  omega

theorem registered?_finalGraph (id : RecordId) :
    (finalGraph r table properties).registered? id = r.graph.registered? id :=
  hr.registered?_resolvedBy (size_le_of_addressable haddressable) hterminals id

/-- A form of placeholders becomes the form of the nodes of the same records. -/
theorem takes_finalGraph {record : NestedRecord RecordId} {form : TypeForm TypeId SignatureId}
    (h : Takes r record form) :
    Says (finalGraph r table properties) record (form.mapTypes fun t => table.getD t t) := by
  have hsize := size_le_of_addressable haddressable
  have hnames : ∀ id t, r.Named id t →
      (finalGraph r table properties).registered? id = some (table.getD t t) := by
    intro id t hid
    rw [registered?_finalGraph hr hterminals haddressable]
    exact hr.registered?_of_named hsize hterminals hid
  have hstored : ∀ signature s, r.Stored signature s →
      (finalGraph r table properties).signature? s =
        some (signature.mapTypes fun t => table.getD t t) :=
    fun signature s hs => (signatureAt_finalGraph hs).signature? haddressable.signatures
  refine h.trans ?_ ?_ (form.mapTypes_spec _).2
  · rintro id t _ hid rfl
    exact hnames id t hid
  · rintro tree s _ htree rfl
    exact SignatureTree.becomes_mapTypes hnames hstored tree s htree

theorem form_of_registered {id : RecordId} {t : TypeId}
    (hid : (finalGraph r table properties).registered? id = some t) :
    ∃ form, (finalGraph r table properties).node? t = some (.form form) := by
  rw [registered?_finalGraph hr hterminals haddressable] at hid
  obtain ⟨form, hform⟩ := hr.registered_form id t hid
  exact ⟨_, (nodeAt_finalGraph hform).node? haddressable.nodes⟩

/-- The properties of the global node are nodes of records. -/
theorem registered_of_mem_properties {options : LoadOptions} {document : Document} {sections : Sections}
    (hsections : SectionsOf (r.resolvedBy table).graph document sections)
    (hproperties : globalProperties options sections.globals = .ok properties) {t : TypeId}
    (ht : t ∈ properties.values) : ∃ id, r.graph.registered? id = some t := by
  obtain ⟨id, hid⟩ := hsections.globals.registered (mem_globalProperties hproperties ht)
  rw [hr.registered?_resolvedBy (size_le_of_addressable haddressable) hterminals] at hid
  exact ⟨id, hid⟩

variable (hproperties : ∀ t ∈ properties.values, ∃ id, r.graph.registered? id = some t)

include hproperties

/-- Whatever a node of the graph refers to is the node of some record. -/
theorem registered_of_mem_nodes {node : Node} (hnode : node ∈ (finalGraph r table properties).nodes)
    {t : TypeId} (ht : t ∈ node.typeRefs) :
    ∃ id, (finalGraph r table properties).registered? id = some t := by
  have hsize := size_le_of_addressable haddressable
  simp only [registered?_finalGraph hr hterminals haddressable]
  rcases Array.mem_push.1 hnode with hnode | rfl
  · obtain ⟨source, hsource, rfl⟩ := Array.mem_map.1 hnode
    rw [Node.typeRefs_mapTypes] at ht
    obtain ⟨p, hp, rfl⟩ := List.mem_map.1 ht
    exact hr.registered?_of_held hsize hterminals (hr.node_refs source hsource p hp)
  · rw [typeRefs_globalNode] at ht
    exact hproperties t ht

omit hproperties in
theorem registered_of_mem_signatures {signature : StoredSignature}
    (hsignature : signature ∈ (finalGraph r table properties).signatures) {t : TypeId}
    (ht : t ∈ signature.typeRefs) :
    ∃ id, (finalGraph r table properties).registered? id = some t := by
  have hsize := size_le_of_addressable haddressable
  simp only [registered?_finalGraph hr hterminals haddressable]
  obtain ⟨source, hsource, rfl⟩ := Array.mem_map.1 hsignature
  rw [Signature.typeRefs_mapTypes] at ht
  obtain ⟨p, hp, rfl⟩ := List.mem_map.1 ht
  exact hr.registered?_of_held hsize hterminals (hr.signature_refs source hsource p hp)

end Final

/-- A reference of a record of `data`, or of a signature in it, that names `id` and holds `t`. -/
def Slot (graph : TypeGraph) (data : List Json) (id : RecordId) (t : TypeId) : Prop :=
  ∃ k json record u form, data[k.val.toNat]? = some json ∧ Record.read k json = .ok record ∧
    graph.registered? k = some u ∧ graph.node? u = some (.form form) ∧
    ((∃ i : Nat, record.form.typeRefs[i]? = some id ∧ form.typeRefs[i]? = some t) ∨
      ∃ (i : Nat) (tree : SignatureTree RecordId) (s : SignatureId),
        record.form.signatureRefs[i]? = some tree ∧ form.signatureRefs[i]? = some s ∧
        tree.Slot graph s id t)

/-- The graph says what `data` says, with nodes for numbers. -/
structure Represents (graph : TypeGraph) (data : List Json) : Prop where
  /-- Every position is a number of 32 bits. -/
  length_le : data.length ≤ 0x100000000
  /-- There are nodes for the records that are not null, and no others. -/
  registered_iff : ∀ id, (∃ t, graph.registered? id = some t) ↔
    ∃ json, data[id.val.toNat]? = some json ∧ json.isNull = false
  registered_inj : ∀ id id' t, graph.registered? id = some t → graph.registered? id' = some t →
    id = id'
  /-- The node of a record is the record as it reads by itself, with nodes for numbers. -/
  record : ∀ (id : RecordId) json, data[id.val.toNat]? = some json → json.isNull = false →
    ∃ record t form, Record.read id json = .ok record ∧ graph.registered? id = some t ∧
      graph.node? t = some (.form form) ∧ Says graph record form
  /-- References are to the same node exactly when they name the same record. -/
  same_iff : ∀ id id' t t', Slot graph data id t → Slot graph data id' t' → (t = t' ↔ id = id')
  /-- Every reference of every node is to a node, and to none that stands in for a record. -/
  node_refs : ∀ node ∈ graph.nodes, ∀ t ∈ node.typeRefs,
    ∃ id form, graph.registered? id = some t ∧ graph.node? t = some (.form form)
  signature_refs : ∀ signature ∈ graph.signatures, ∀ t ∈ signature.typeRefs,
    ∃ id form, graph.registered? id = some t ∧ graph.node? t = some (.form form)

theorem Slot.registered {graph : TypeGraph} {data : List Json} {id : RecordId} {t : TypeId}
    (hslot : Slot graph data id t)
    (h : ∀ (k : RecordId) json record u form, data[k.val.toNat]? = some json →
      Record.read k json = .ok record → graph.registered? k = some u →
      graph.node? u = some (.form form) → Says graph record form) :
    graph.registered? id = some t := by
  obtain ⟨k, json, record, u, form, hjson, hread, hu, hform, hslot⟩ := hslot
  have hsays := h k json record u form hjson hread hu hform
  rcases hslot with ⟨i, hid, ht⟩ | ⟨i, tree, s, htree, hs, hslot⟩
  · exact getElem?_of_forall₂ hsays.typeRefs hid ht
  · exact hslot.of_becomes (getElem?_of_forall₂ hsays.signatureRefs htree hs)

section Records

variable {options : LoadOptions} {data : List Json} {records : List (Option (NestedRecord RecordId))}
  {r : Resolver} {table : Std.TreeMap TypeId TypeId} {properties : OrderedMap String TypeId}
  (hrecords : Document.readRecords options 0 data = .ok records)
  (hregisters : Registers 0 records {} r) (hterminals : r.graph.terminals = .ok table)
  (haddressable : (finalGraph r table properties).Addressable)

include hrecords hregisters hterminals haddressable

/-- A record that reads has a node, and that node says what the record says. -/
theorem exists_says_finalGraph {id : RecordId} {json : Json} {record : NestedRecord RecordId}
    (hjson : data[id.val.toNat]? = some json) (hread : Record.read id json = .ok record) :
    ∃ t form, (finalGraph r table properties).registered? id = some t ∧
      (finalGraph r table properties).node? t = some (.form form) ∧
      Says (finalGraph r table properties) record form := by
  have hr := hregisters.collecting
  have hnull := Document.isNull_of_read hread
  rw [← RecordId.word_eq id] at hread
  have hrecord := (Document.getElem?_records hrecords).2 ⟨json, hjson, hnull, hread⟩
  obtain ⟨t, form, ht, hnode, htakes⟩ := hregisters.forms _ record hrecord
  rw [Nat.zero_add, RecordId.word_eq] at ht
  exact ⟨t, _, (registered?_finalGraph hr hterminals haddressable id).trans ht,
    (nodeAt_finalGraph hnode).node? haddressable.nodes, takes_finalGraph hr hterminals haddressable htakes⟩

theorem registered_of_slot {id : RecordId} {t : TypeId}
    (hslot : Slot (finalGraph r table properties) data id t) :
    (finalGraph r table properties).registered? id = some t := by
  refine hslot.registered fun k json record u form hjson hread hu hnode => ?_
  obtain ⟨u', form', hu', hnode', hsays⟩ :=
    exists_says_finalGraph hrecords hregisters hterminals haddressable hjson hread
  obtain rfl := Option.some.inj (hu.symm.trans hu')
  obtain rfl : form = form' := by simpa using hnode.symm.trans hnode'
  exact hsays

/-- The graph that is made of the records of `data` says what `data` says. -/
theorem represents_finalGraph
    (hproperties : ∀ t ∈ properties.values, ∃ id, r.graph.registered? id = some t) :
    Represents (finalGraph r table properties) data := by
  have hr := hregisters.collecting
  have hregistered := registered?_finalGraph hr hterminals haddressable
  have hinj : ∀ id id' t, (finalGraph r table properties).registered? id = some t →
      (finalGraph r table properties).registered? id' = some t → id = id' := by
    simp only [hregistered]
    exact hr.registered_inj (size_le_of_addressable haddressable)
  refine {
    length_le := Document.length_le_of_readRecords hrecords
    registered_iff := fun id => ?_
    registered_inj := hinj
    record := fun id json hjson hnull => ?_
    same_iff := fun id id' t t' hslot hslot' => ?_
    node_refs := fun node hnode t ht => ?_
    signature_refs := fun signature hsignature t ht => ?_ }
  · simp only [hregistered]
    exact (hregisters.holdsRecord hrecords id).trans Document.holdsRecord_iff
  · obtain ⟨record, hread⟩ := Document.exists_read hrecords hjson hnull
    rw [RecordId.word_eq] at hread
    obtain ⟨t, form, ht, hnode, hsays⟩ :=
      exists_says_finalGraph hrecords hregisters hterminals haddressable hjson hread
    exact ⟨record, t, form, hread, ht, hnode, hsays⟩
  · have ht := registered_of_slot hrecords hregisters hterminals haddressable hslot
    have ht' := registered_of_slot hrecords hregisters hterminals haddressable hslot'
    constructor
    · rintro rfl
      exact hinj id id' t ht ht'
    · rintro rfl
      exact Option.some.inj (ht.symm.trans ht')
  · obtain ⟨id, hid⟩ := registered_of_mem_nodes hr hterminals haddressable hproperties hnode ht
    obtain ⟨form, hnode⟩ := form_of_registered hr hterminals haddressable hid
    exact ⟨id, form, hid, hnode⟩
  · obtain ⟨id, hid⟩ := registered_of_mem_signatures hr hterminals haddressable hsignature ht
    obtain ⟨form, hnode⟩ := form_of_registered hr hterminals haddressable hid
    exact ⟨id, form, hid, hnode⟩

end Records

theorem represents_of_ofDocument {options : LoadOptions} {json : Json} {document : Document}
    {environment : Environment} (hread : Document.read options json = .ok document)
    (hload : ofDocument options document = .ok environment) (haddressable : environment.graph.Addressable) :
    ∃ members data, json = .object members ∧ members.lookup "data" = some (.array data) ∧
      Represents environment.graph data := by
  obtain ⟨o, records, ho, hrecords, rfl⟩ := Document.read_eq_ok.1 hread
  obtain ⟨members, rfl, hdata, -⟩ := Document.outline_eq_ok.1 ho
  refine ⟨members, o.data, rfl, hdata, ?_⟩
  have hlen := Document.length_le_of_read hread
  obtain ⟨table, sections, properties, hterminals, hsections, hproperties, rfl⟩ :=
    ok_of_ofDocument hlen hload
  have hregisters := registers_collected hlen
  have hsize := size_le_of_addressable haddressable
  refine represents_finalGraph hrecords hregisters hterminals haddressable fun t ht => ?_
  obtain ⟨id, hid⟩ := hsections.globals.registered (mem_globalProperties hproperties ht)
  rw [hregisters.collecting.registered?_resolvedBy hsize hterminals] at hid
  exact ⟨id, hid⟩

end Environment

end TypeEnv
