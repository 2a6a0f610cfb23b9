import TypeEnv.Proofs.Environment.Roles

/-! All that a loaded environment has, told from its document: which nodes there are and what each of them
holds, which signatures there are and where they are stored, and the catalogs and locations. -/

namespace TypeEnv

theorem exists_getElem?_of_forall₂ {α β : Type} {R : α → β → Prop} {l : List α} {l' : List β}
    (h : List.Forall₂ R l l') {i : Nat} {a : α} (ha : l[i]? = some a) : ∃ b, l'[i]? = some b ∧ R a b := by
  obtain ⟨hi, -⟩ := List.getElem?_eq_some_iff.1 ha
  have hb := List.getElem?_eq_getElem (h.length_eq ▸ hi)
  exact ⟨_, hb, getElem?_of_forall₂ h ha hb⟩

namespace Environment

open Resolver

/-! ### Records -/

/-- The records that are stood in for are those that are mentioned. -/
theorem Registers.named_iff {records : List (Option (NestedRecord RecordId))} {r : Resolver}
    (h : Registers 0 records {} r) {id : RecordId} : (∃ t, r.Named id t) ↔ id ∈ mentionsOf records := by
  have hfind := congrArg Option.isSome (h.mentioned (· == id))
  have hnone : ({} : Resolver).graph.mentioned = [] := rfl
  rw [hnone, List.nil_append, Bool.eq_iff_iff, List.find?_isSome, List.find?_isSome] at hfind
  simp only [beq_iff_eq, exists_eq_right] at hfind
  rw [← hfind]
  exact h.collecting.mem_mentioned.symm

theorem Registers.registered_iff {records : List (Option (NestedRecord RecordId))} {r : Resolver}
    (h : Registers 0 records {} r) (hlen : records.length ≤ 0x100000000) {id : RecordId} :
    (∃ t, r.graph.registered? id = some t) ↔ ∃ record, records[id.val.toNat]? = some (some record) := by
  rw [h.registered]
  simp only [TypeGraph.registered?_empty, reduceCtorEq, exists_false, false_or, Nat.zero_add]
  constructor
  · rintro ⟨k, record, hk, rfl⟩
    have hlt := (List.getElem?_eq_some_iff.1 hk).1
    exact ⟨record, by rwa [toNat_toUInt32 (by omega)]⟩
  · rintro ⟨record, hk⟩
    exact ⟨_, record, hk, id.word_eq.symm⟩

/-! ### Environments -/

structure Holds (options : LoadOptions) (environment : Environment) (document : Document) : Prop where
  roles : Labels environment.Plays {t | environment.graph.Contains t}
  placeholder_iff : ∀ id,
    (∃ t, environment.graph.node? t = some (.placeholder id)) ↔ id ∈ mentionsOf document.records
  registered_iff : ∀ id, (∃ t, environment.graph.registered? id = some t) ↔
    ∃ record, document.records[id.val.toNat]? = some (some record)
  /-- The node of a record is the record with nodes for numbers, and its signatures are those from its first on. -/
  record : ∀ (id : RecordId) record, document.records[id.val.toNat]? = some (some record) →
    ∃ t form, environment.graph.registered? id = some t ∧ environment.graph.node? t = some (.form form) ∧
      Says environment.graph record form ∧ form.signatureRefs =
        (SignatureTree.roots (firstSignature document.records id.val.toNat) record.form.signatureRefs).map
          signatureOf
  signatureCount_eq : environment.graph.signatureCount = (rowsFrom 0 document.records).length
  signature : ∀ (i : Nat) (row : Signature RecordId Nat), (rowsFrom 0 document.records)[i]? = some row →
    ∃ signature, environment.graph.signatures[i]? = some signature ∧
      row.Related (fun id t => environment.graph.registered? id = some t) (fun i s => s = signatureOf i) signature
  inRange : environment.graph.InRange
  views : environment.graph.views = {}
  global : ∃ properties, globalProperties options environment.globals = .ok properties ∧
    environment.graph.node? environment.global = some (globalNode properties)
  sections : SectionsOf environment.graph document
    ⟨environment.globals, environment.types, environment.ambient, environment.locations⟩

section Final

variable {document : Document} {table : Std.TreeMap TypeId TypeId} {properties : OrderedMap String TypeId}
  (hlen : document.records.length ≤ 0x100000000) (hterminals : (collected document).graph.terminals = .ok table)
  (haddressable : (finalGraph (collected document) table properties).Addressable)

include hlen hterminals haddressable

theorem exists_form_finalGraph {id : RecordId} {record : NestedRecord RecordId}
    (hk : document.records[id.val.toNat]? = some (some record)) :
    ∃ t form, (finalGraph (collected document) table properties).registered? id = some t ∧
      (finalGraph (collected document) table properties).node? t = some (.form form) ∧
      Says (finalGraph (collected document) table properties) record form ∧ form.signatureRefs =
        (SignatureTree.roots (firstSignature document.records id.val.toNat) record.form.signatureRefs).map
          signatureOf := by
  have hregisters := registers_collected hlen
  have hsize := size_le_of_addressable haddressable
  obtain ⟨t, form, ht, hnode, htakes⟩ := hregisters.forms _ record hk
  obtain ⟨t', form', ht', hnode', hrefs⟩ := (numbered_collected hlen).forms _ record hk
  obtain rfl := Option.some.inj (ht.symm.trans ht')
  obtain rfl : form = form' := by simpa using (hnode.node? hsize).symm.trans (hnode'.node? hsize)
  have hstart : ({} : Resolver).graph.signatureCount = 0 := rfl
  rw [Nat.zero_add, id.word_eq] at ht
  rw [hstart, Nat.zero_add] at hrefs
  refine ⟨t, _, (registered?_finalGraph hregisters.collecting hterminals haddressable id).trans ht,
    (nodeAt_finalGraph hnode).node? haddressable.nodes,
    takes_finalGraph hregisters.collecting hterminals haddressable htakes, ?_⟩
  rw [TypeForm.signatureRefs_mapTypes, hrefs]

theorem exists_signature_finalGraph {i : Nat} {row : Signature RecordId Nat}
    (hi : (rowsFrom 0 document.records)[i]? = some row) :
    ∃ signature, (finalGraph (collected document) table properties).signatures[i]? = some signature ∧
      row.Related (fun id t => (finalGraph (collected document) table properties).registered? id = some t)
        (fun i s => s = signatureOf i) signature := by
  have hr := (registers_collected hlen).collecting
  obtain ⟨new, hnew, hrows⟩ := (numbered_collected hlen).adds.signatures
  obtain ⟨signature, hsignature, hrow⟩ := exists_getElem?_of_forall₂ hrows hi
  have hstored : (collected document).graph.signatures[i]? = some signature := by
    rw [← Array.getElem?_toList, hnew]
    exact hsignature
  refine ⟨signature.mapTypes fun t => table.getD t t, ?_, ?_, hrow.target, hrow.unionSignatures⟩
  · simp [finalGraph, withGlobal, TypeGraph.alloc, resolvedBy, TypeGraph.mapTypes, hstored]
  · refine hrow.header.trans ?_ (signature.mapTypes_header _)
    rintro id t _ hid rfl
    rw [registered?_finalGraph hr hterminals haddressable]
    exact hr.registered?_of_named (size_le_of_addressable haddressable) hterminals hid

end Final

/-- What is loaded is made of a document, and the records of the document are read from its data. -/
theorem exists_data_of_ofJson {options : LoadOptions} {json : Json} {environment : Environment}
    (h : ofJson options json = .ok environment) : ∃ members data document, json = .object members ∧
      members.lookup "data" = some (.array data) ∧ document.records.length ≤ 0x100000000 ∧
      Document.readRecords options 0 data = .ok document.records ∧
      ofDocument options document = .ok environment := by
  obtain ⟨document, hread, hload⟩ := ok_of_ofJson.1 h
  have hlen := Document.length_le_of_read hread
  obtain ⟨o, records, ho, hrecords, rfl⟩ := Document.read_eq_ok.1 hread
  obtain ⟨members, rfl, hdata, -⟩ := Document.outline_eq_ok.1 ho
  exact ⟨members, o.data, _, rfl, hdata, hlen, hrecords, hload⟩

/-- A node for each that was taken in and one more, and the signatures that were taken in. -/
theorem sizes_of_ofDocument {options : LoadOptions} {document : Document} {environment : Environment}
    (hlen : document.records.length ≤ 0x100000000) (h : ofDocument options document = .ok environment) :
    environment.graph.size = (collected document).graph.size + 1 ∧
      environment.graph.signatureCount = (collected document).graph.signatureCount := by
  obtain ⟨table, sections, properties, -, -, -, rfl⟩ := ok_of_ofDocument hlen h
  exact ⟨size_finalGraph, Array.size_map ..⟩

section Registered

variable {options : LoadOptions} {document : Document} {environment : Environment}
  (hlen : document.records.length ≤ 0x100000000) (h : ofDocument options document = .ok environment)
  (haddressable : environment.graph.Addressable) {t : TypeId}

include hlen h haddressable

/-- Whatever a node refers to is the node of a record. -/
theorem exists_registered_of_mem_nodes {node : Node} (hnode : node ∈ environment.graph.nodes)
    (ht : t ∈ node.typeRefs) : ∃ id, environment.graph.registered? id = some t := by
  obtain ⟨table, sections, properties, hterminals, hsections, hproperties, rfl⟩ := ok_of_ofDocument hlen h
  have hr := (registers_collected hlen).collecting
  have hvalues : ∀ t ∈ properties.values, ∃ id, (collected document).graph.registered? id = some t :=
    fun t => registered_of_mem_properties hr hterminals haddressable hsections hproperties
  exact registered_of_mem_nodes hr hterminals haddressable hvalues hnode ht

/-- Whatever a signature refers to is the node of a record. -/
theorem exists_registered_of_mem_signatures {signature : StoredSignature}
    (hsignature : signature ∈ environment.graph.signatures) (ht : t ∈ signature.typeRefs) :
    ∃ id, environment.graph.registered? id = some t := by
  obtain ⟨table, sections, properties, hterminals, hsections, hproperties, rfl⟩ := ok_of_ofDocument hlen h
  have hr := (registers_collected hlen).collecting
  exact registered_of_mem_signatures hr hterminals haddressable hsignature ht

end Registered

/-- What is loaded has all that its document tells. -/
theorem holds_of_ofDocument {options : LoadOptions} {document : Document} {environment : Environment}
    (hlen : document.records.length ≤ 0x100000000) (h : ofDocument options document = .ok environment)
    (haddressable : environment.graph.Addressable) : environment.Holds options document := by
  have hnodes := @exists_registered_of_mem_nodes options document environment hlen h haddressable
  obtain ⟨table, sections, properties, hterminals, hsections, hproperties, rfl⟩ := ok_of_ofDocument hlen h
  have hregisters := registers_collected hlen
  have hr := hregisters.collecting
  have hsteps := steps_collected document
  have hregistered := registered?_finalGraph hr hterminals haddressable
  have hviews := views_of_steps hsteps
  refine {
    roles := labels_plays hr haddressable hterminals (formsRegistered_of_steps hsteps) sections
    placeholder_iff := fun id => ?_
    registered_iff := fun id => ?_
    record := fun id record => exists_form_finalGraph hlen hterminals haddressable
    signatureCount_eq := ?_
    signature := fun i row => exists_signature_finalGraph hlen hterminals haddressable
    inRange := fun node hnode t ht => ?_
    views := hviews
    global := ⟨properties, hproperties, ?_⟩
    sections := ⟨hsections.globals, hsections.types, hsections.ambient, hsections.locations⟩ }
  · rw [← hregisters.named_iff]
    exact exists_congr fun t => node?_placeholder_iff hr haddressable
  · rw [← hregisters.registered_iff hlen]
    exact exists_congr fun t => by rw [← hregistered id]; rfl
  · rw [← signatureCount_collected hlen]
    exact Array.size_map ..
  · obtain ⟨id, hid⟩ := hnodes hnode ht
    obtain ⟨form, hform⟩ := form_of_registered hr hterminals haddressable hid
    exact TypeGraph.contains_of_node? hform
  · have hglobal := node?_global haddressable
    rw [← size_resolvedBy (collected document) table] at hglobal
    exact hglobal

end Environment

end TypeEnv
