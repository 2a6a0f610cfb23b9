import TypeEnv.Proofs.Environment.GlobalNode
import TypeEnv.Proofs.Resolver.Placement

/-! Where the nodes of a document are placed. Each record is preceded by placeholders for the records that
it mentions first, in the order in which it is taken in, so the place of a record follows from how many
records there are before it and from how many different ones have been mentioned when it is done. The
global node comes last. Catalogs and locations place nothing. -/

namespace TypeEnv

theorem Node.eq_placeholder_of_standsFor? {node : Node} {id : RecordId} (h : node.standsFor? = some id) :
    node = .placeholder id := by
  cases node with
  | form form => cases h
  | placeholder id' =>
    obtain rfl := Option.some.inj h
    rfl

theorem Node.standsFor?_mapTypes (f : TypeId → TypeId) (node : Node) :
    (node.mapTypes f).standsFor? = node.standsFor? := by
  cases node <;> rfl

namespace Environment

open Stateful Resolver

/-! ### Layouts -/

/-- The records that `record` mentions and that are not among those mentioned `before`. -/
def firstMentions (before : List RecordId) (record : NestedRecord RecordId) : List RecordId :=
  (record.mentions.removeAll before).eraseDups

/-- What the nodes that are made for records stand in for; that of a record itself for nothing. -/
def layout (before : List RecordId) : List (Option (NestedRecord RecordId)) → List (Option RecordId)
  | [] => []
  | none :: records => layout before records
  | some record :: records =>
    (firstMentions before record).map some ++ none :: layout (before ++ record.mentions) records

/-- How many different records these records mention. -/
def mentionCount (records : List (Option (NestedRecord RecordId))) : ℕ :=
  (mentionsOf records).eraseDups.length

section Layout

variable {before : List RecordId} {record : NestedRecord RecordId}
  {records records' : List (Option (NestedRecord RecordId))}

theorem mentionsOf_some : mentionsOf (some record :: records) = record.mentions ++ mentionsOf records := by
  simp [mentionsOf]

theorem mentionsOf_append : mentionsOf (records ++ records') = mentionsOf records ++ mentionsOf records' := by
  simp [mentionsOf]

theorem eraseDups_append_mentions :
    (before ++ record.mentions).eraseDups = before.eraseDups ++ firstMentions before record :=
  List.eraseDups_append

theorem layout_append (before : List RecordId) (records records' : List (Option (NestedRecord RecordId))) :
    layout before (records ++ records') =
      layout before records ++ layout (before ++ mentionsOf records) records' := by
  induction records generalizing before with
  | nil => simp [layout, mentionsOf]
  | cons first records ih =>
    cases first with
    | none => exact ih before
    | some record =>
      simp only [List.cons_append, layout, ih, mentionsOf_some, List.append_assoc]

/-- A layout has a node for each record and for each record mentioned for the first time. -/
theorem length_layout (before : List RecordId) (records : List (Option (NestedRecord RecordId))) :
    (layout before records).length + before.eraseDups.length =
      records.countP Option.isSome + (before ++ mentionsOf records).eraseDups.length := by
  induction records generalizing before with
  | nil => simp [layout, mentionsOf]
  | cons first records ih =>
    cases first with
    | none => simpa [layout, mentionsOf] using ih before
    | some record =>
      have hrest := ih (before ++ record.mentions)
      rw [eraseDups_append_mentions, List.length_append, List.append_assoc] at hrest
      simp only [layout, List.length_append, List.length_map, List.length_cons, mentionsOf_some,
        List.countP_cons, Option.isSome_some, if_true]
      omega

theorem length_layout_nil : (layout [] records).length =
    records.countP Option.isSome + mentionCount records :=
  length_layout [] records

/-- The layout up to a record, the placeholders for what it mentions first, and the record. -/
theorem layout_eq_of_getElem? {k : ℕ} (hk : records[k]? = some (some record)) :
    ∃ rest, layout [] records = layout [] (records.take k) ++
      (firstMentions (mentionsOf (records.take k)) record).map some ++ none :: rest := by
  obtain ⟨hlt, hrecord⟩ := List.getElem?_eq_some_iff.1 hk
  have hsplit : records = records.take k ++ some record :: records.drop (k + 1) := by
    rw [← hrecord, List.cons_getElem_drop_succ, List.take_append_drop]
  have hlayout := layout_append [] (records.take k) (some record :: records.drop (k + 1))
  rw [← hsplit, List.nil_append, layout, ← List.append_assoc] at hlayout
  exact ⟨_, hlayout⟩

theorem mentionCount_take_succ {k : ℕ} (hk : records[k]? = some (some record)) :
    mentionCount (records.take (k + 1)) =
      mentionCount (records.take k) + (firstMentions (mentionsOf (records.take k)) record).length := by
  have hmentions : mentionsOf [some record] = record.mentions := by simp [mentionsOf]
  rw [List.take_add_one, hk, Option.toList_some, mentionCount, mentionsOf_append, hmentions,
    eraseDups_append_mentions, List.length_append]
  rfl

end Layout

/-! ### Taking in -/

/-- The state once the records `before` have been mentioned. -/
structure Ready (before : List RecordId) (r : Resolver) : Prop where
  collecting : r.Collecting
  distinct : r.Distinct
  mentioned : ∀ p, r.graph.mentioned.find? p = before.find? p

/-- From `r`, where the records `before` have been mentioned, `record` has been placed. -/
structure PlacesOne (before : List RecordId) (index : ℕ) (record : NestedRecord RecordId) (r r' : Resolver) :
    Prop where
  ready : Ready (before ++ record.mentions) r'
  grows : r.GrowsTo r'
  nodes : r'.graph.nodes.toList.map Node.standsFor? =
    r.graph.nodes.toList.map Node.standsFor? ++ ((firstMentions before record).map some ++ [none])
  registered : r'.graph.registered? ⟨index.toUInt32⟩ =
    some ⟨(r.graph.size + (firstMentions before record).length).toUInt32⟩
  registeredCount : r'.graph.registeredCount = r.graph.registeredCount + 1

/-- From `r`, where the records `before` have been mentioned, the records from position `index` on have
been placed. -/
structure Places (before : List RecordId) (index : ℕ) (records : List (Option (NestedRecord RecordId)))
    (r r' : Resolver) : Prop where
  grows : r.GrowsTo r'
  nodes : r'.graph.nodes.toList.map Node.standsFor? =
    r.graph.nodes.toList.map Node.standsFor? ++ layout before records
  registered : ∀ k record, records[k]? = some (some record) →
    r'.graph.registered? ⟨(index + k).toUInt32⟩ = some ⟨(r.graph.size + (layout before (records.take k)).length +
      (firstMentions (before ++ mentionsOf (records.take k)) record).length).toUInt32⟩
  registeredCount : r'.graph.registeredCount = r.graph.registeredCount + records.countP Option.isSome

variable {r r' : Resolver} {before : List RecordId} {index : ℕ} {record : NestedRecord RecordId}
  {records : List (Option (NestedRecord RecordId))}

theorem steps_formOf {form : TypeForm TypeId SignatureId}
    (h : (formOf record).run.run r = (.ok form, r')) : Steps r r' := by
  have hsteps := leaves_formOf record r
  rwa [h] at hsteps

theorem placesOne_withRegistered (hr : Ready before r) (htakes : Resolver.Takes record.mentions r r')
    (hsteps : Steps r r') {form : TypeForm TypeId SignatureId}
    (hrefs : ∀ t ∈ form.typeRefs, r'.Held t) (hfree : r'.graph.registered? ⟨index.toUInt32⟩ = none) :
    PlacesOne before index record r (r'.withRegistered ⟨index.toUInt32⟩ (.form form)) := by
  have hnodes : r'.graph.nodes.toList = r.graph.nodes.toList ++
      (firstMentions before record).map Node.placeholder := htakes.nodes_eq hsteps hr.distinct hr.mentioned
  have hsize : r'.graph.size = r.graph.size + (firstMentions before record).length := by
    simpa [TypeGraph.size] using congrArg List.length hnodes
  refine ⟨⟨htakes.collecting.withRegistered hrefs, ?_, fun p => ?_⟩,
    htakes.grows.trans (growsTo_withRegistered _ hfree), ?_, ?_, ?_⟩
  · exact Step.distinct (.registered form hfree) (hsteps.preserves (fun _ _ => Step.distinct) hr.distinct)
  · have hmentioned : (r'.withRegistered ⟨index.toUInt32⟩ (.form form)).graph.mentioned =
        r'.graph.mentioned := TypeGraph.mentioned_alloc_form _ _
    rw [hmentioned, htakes.mentioned, List.find?_append, hr.mentioned, ← List.find?_append]
  · simp [withRegistered, TypeGraph.alloc, hnodes, Node.standsFor?]
  · rw [registered?_withRegistered, if_pos rfl, TypeGraph.alloc, hsize]
  · have hinsert : (r'.withRegistered ⟨index.toUInt32⟩ (.form form)).graph.registry.size =
        r'.graph.registry.size + 1 := size_insert_of_new _ _ hfree
    rw [TypeGraph.registeredCount, hinsert, htakes.registry, TypeGraph.registeredCount]

/-- A record that is taken in is placed, and then come the records after it. -/
theorem exists_placesOne_of_run (hr : Ready before r)
    (h : (registerFrom index (some record :: records)).run.run r = (.ok (), r')) :
    ∃ r₁, PlacesOne before index record r r₁ ∧
      (registerFrom (index + 1) records).run.run r₁ = (.ok (), r') := by
  obtain ⟨form, r₁, hrun, htakes, hform⟩ := collects_formOf record r hr.collecting
  simp only [registerFrom, run_bind, hrun, run_discard, run_register, htakes.collecting.phase,
    reduceCtorEq, if_false] at h
  by_cases hid : r₁.isRegistered ⟨index.toUInt32⟩ = true
  · rw [if_pos hid] at h
    cases h
  · rw [if_neg hid] at h
    have hrefs := held_of_named (hform r₁ (.refl r₁)).typeRefs
    exact ⟨_, placesOne_withRegistered hr htakes (steps_formOf hrun) hrefs (not_isRegistered_iff.1 hid), h⟩

theorem PlacesOne.size_eq (h : PlacesOne before index record r r') :
    r'.graph.size = r.graph.size + ((firstMentions before record).length + 1) := by
  simpa [TypeGraph.size] using congrArg List.length h.nodes

theorem PlacesOne.places {r₁ : Resolver} (h : PlacesOne before index record r r₁)
    (hrest : Places (before ++ record.mentions) (index + 1) records r₁ r') :
    Places before index (some record :: records) r r' where
  grows := h.grows.trans hrest.grows
  nodes := by
    rw [hrest.nodes, h.nodes, layout]
    simp only [List.append_assoc, List.singleton_append]
  registered k record' hk := by
    cases k with
    | zero =>
      obtain rfl : record = record' := by simpa using hk
      simpa [layout, mentionsOf] using hrest.grows.registered _ _ h.registered
    | succ k =>
      have hplace := hrest.registered k record' (by simpa using hk)
      rw [h.size_eq, List.append_assoc] at hplace
      rw [List.take_succ_cons, mentionsOf_some, layout, Nat.add_comm k, ← Nat.add_assoc index, hplace]
      simp only [List.length_append, List.length_map, List.length_cons]
      congr 4
      omega
  registeredCount := by
    rw [hrest.registeredCount, h.registeredCount]
    simp only [List.countP_cons, Option.isSome_some, if_true]
    omega

theorem places_of_run (hr : Ready before r)
    (h : (registerFrom index records).run.run r = (.ok (), r')) : Places before index records r r' := by
  induction records generalizing before index r with
  | nil =>
    obtain rfl : r = r' := congrArg Prod.snd h
    exact ⟨.refl r, by simp [layout], by simp, by simp⟩
  | cons first records ih =>
    cases first with
    | none =>
      obtain ⟨hgrows, hnodes, hregistered, hcount⟩ := ih hr h
      refine ⟨hgrows, hnodes, fun k record hk => ?_, by simpa using hcount⟩
      cases k with
      | zero => simp at hk
      | succ k =>
        have hplace := hregistered k record (by simpa using hk)
        rwa [Nat.add_assoc, Nat.add_comm 1] at hplace
    | some record =>
      obtain ⟨r₁, hone, hrest⟩ := exists_placesOne_of_run hr h
      exact hone.places (ih hone.ready hrest)

theorem places_collected {document : Document} (hlen : document.records.length ≤ 0x100000000) :
    Places [] 0 document.records {} (collected document) :=
  places_of_run ⟨collecting_new, ⟨List.nodup_nil, nofun⟩, fun _ => rfl⟩ (run_registerFrom_zero hlen).1

/-- As many nodes are made as there are records, and different records that they mention. -/
theorem size_collected {document : Document} (hlen : document.records.length ≤ 0x100000000) :
    (collected document).graph.size =
      document.records.countP Option.isSome + mentionCount document.records := by
  rw [← length_layout_nil, ← List.nil_append (layout [] document.records)]
  have hlength := congrArg List.length (places_collected hlen).nodes
  rwa [List.length_map] at hlength

/-! ### Environments -/

/-- How many records are not null. -/
def recordCount (data : List Json) : ℕ := data.countP (!·.isNull)

/-- The records are those that `data` is made up of, each as it reads by itself. -/
def RecordsOf (data : List Json) (records : List (Option (NestedRecord RecordId))) : Prop :=
  records.length = data.length ∧ ∀ (k : ℕ) record, records[k]? = some (some record) ↔
    ∃ json, data[k]? = some json ∧ json.isNull = false ∧ Record.read ⟨k.toUInt32⟩ json = .ok record

/-- The handles of an environment, in closed form. -/
structure LaidOut (environment : Environment) (data : List Json)
    (records : List (Option (NestedRecord RecordId))) : Prop where
  /-- The node of a record comes after those of the records before it and after a placeholder for each record
  that is mentioned up to it, the last of which are for what it is the first to mention. -/
  record : ∀ (k : ℕ) json, data[k]? = some json → json.isNull = false → ∃ record t,
    records[k]? = some (some record) ∧ environment.graph.registered? ⟨k.toUInt32⟩ = some t ∧
    t.val.toNat = recordCount (data.take k) + mentionCount (records.take (k + 1)) ∧
    (firstMentions (mentionsOf (records.take k)) record).map Node.placeholder <:+
      environment.graph.nodes.toList.take t.val.toNat
  placeholder_iff : ∀ id,
    (∃ t, environment.graph.node? t = some (.placeholder id)) ↔ id ∈ mentionsOf records
  placeholder_unique : ∀ id t u, environment.graph.node? t = some (.placeholder id) →
    environment.graph.node? u = some (.placeholder id) → t = u
  registeredCount_eq : environment.graph.registeredCount = recordCount data
  global_eq : environment.global.val.toNat = recordCount data + mentionCount records
  size_eq : environment.graph.size = recordCount data + mentionCount records + 1

theorem map_isSome_of_readRecords {options : LoadOptions} {data : List Json}
    (h : Document.readRecords options 0 data = .ok records) :
    records.map Option.isSome = data.map (!·.isNull) := by
  obtain ⟨hlen, hread⟩ := Document.readRecords_eq_ok.1 h
  refine List.ext_getElem? fun k => ?_
  rw [List.getElem?_map, List.getElem?_map]
  cases hk : data[k]? with
  | none =>
    rw [List.getElem?_eq_none_iff, ← hlen, ← List.getElem?_eq_none_iff] at hk
    rw [hk]
    rfl
  | some json =>
    obtain ⟨record, hrecord, hat⟩ := hread k json hk
    rw [hrecord]
    rcases Document.readRecord_eq_ok.1 (Document.readAt_eq_ok.1 hat).2 with ⟨hnull, -, rfl⟩ | ⟨hnull, _, rfl, -⟩
    · simp [hnull]
    · simp [hnull]

theorem countP_take_of_readRecords {options : LoadOptions} {data : List Json}
    (h : Document.readRecords options 0 data = .ok records) (k : ℕ) :
    (records.take k).countP Option.isSome = recordCount (data.take k) := by
  have hcount := congrArg (fun l => (l.take k).countP id) (map_isSome_of_readRecords h)
  simp only [← List.map_take, List.countP_map, Function.id_comp] at hcount
  exact hcount

theorem eq_map_placeholder {nodes : List Node} {ids : List RecordId}
    (h : nodes.map Node.standsFor? = ids.map some) : nodes = ids.map Node.placeholder := by
  induction ids generalizing nodes with
  | nil => simpa using h
  | cons id ids ih =>
    obtain ⟨node, rest, rfl, hnode, hrest⟩ := List.map_eq_cons_iff.1 h
    rw [Node.eq_placeholder_of_standsFor? hnode, ih hrest]
    rfl

theorem standsFor?_finalGraph (r : Resolver) (table : Std.TreeMap TypeId TypeId)
    (properties : OrderedMap String TypeId) :
    (finalGraph r table properties).nodes.toList.map Node.standsFor? =
      r.graph.nodes.toList.map Node.standsFor? ++ [none] := by
  have hmap : Node.standsFor? ∘ (·.mapTypes fun t => table.getD t t) = Node.standsFor? :=
    funext fun node => node.standsFor?_mapTypes _
  simp only [finalGraph, withGlobal, TypeGraph.alloc, resolvedBy, TypeGraph.mapTypes, Array.toList_push,
    Array.toList_map, List.map_append, List.map_map, hmap]
  rfl

theorem countP_of_readRecords {options : LoadOptions} {data : List Json}
    (h : Document.readRecords options 0 data = .ok records) :
    records.countP Option.isSome = recordCount data := by
  have hcount := countP_take_of_readRecords h data.length
  rwa [List.take_length, ← (Document.readRecords_eq_ok.1 h).1, List.take_length] at hcount

/-- Where a layout puts a record, and what it puts directly before. -/
theorem exists_front_of_layout {k : ℕ} {nodes : List Node} {last : List (Option RecordId)}
    (hnodes : nodes.map Node.standsFor? = layout [] records ++ last)
    (hk : records[k]? = some (some record)) :
    (layout [] (records.take k)).length + (firstMentions (mentionsOf (records.take k)) record).length <
        nodes.length ∧
      (firstMentions (mentionsOf (records.take k)) record).map Node.placeholder <:+
        nodes.take ((layout [] (records.take k)).length +
          (firstMentions (mentionsOf (records.take k)) record).length) := by
  obtain ⟨rest, hlayout⟩ := layout_eq_of_getElem? hk
  rw [hlayout] at hnodes
  constructor
  · have hlength := congrArg List.length hnodes
    simp only [List.length_map, List.length_append, List.length_cons] at hlength
    omega
  · have hfront := congrArg (List.take ((layout [] (records.take k)).length +
      (firstMentions (mentionsOf (records.take k)) record).length)) hnodes
    rw [← List.map_take, List.append_assoc _ (none :: rest), List.take_left' (by simp)] at hfront
    obtain ⟨front, placeholders, heq, -, hplaceholders⟩ := List.map_eq_append_iff.1 hfront
    rw [heq, eq_map_placeholder hplaceholders]
    exact List.suffix_append _ _

section Final

variable {options : LoadOptions} {document : Document} {data : List Json}
  {table : Std.TreeMap TypeId TypeId} {properties : OrderedMap String TypeId}
  (hrecords : Document.readRecords options 0 data = .ok document.records)

include hrecords

theorem length_le_of_records : document.records.length ≤ 0x100000000 := by
  rw [(Document.readRecords_eq_ok.1 hrecords).1]
  exact Document.length_le_of_readRecords hrecords

/-- The arena is laid out as the records tell, with the global node at its end. -/
theorem standsFor?_finalGraph_collected :
    (finalGraph (collected document) table properties).nodes.toList.map Node.standsFor? =
      layout [] document.records ++ [none] := by
  rw [standsFor?_finalGraph, (places_collected (length_le_of_records hrecords)).nodes]
  rfl

theorem size_finalGraph_collected : (finalGraph (collected document) table properties).size =
    recordCount data + mentionCount document.records + 1 := by
  have hstands : (finalGraph (collected document) table properties).nodes.toList.map Node.standsFor? =
      layout [] document.records ++ [none] := standsFor?_finalGraph_collected hrecords
  rw [← countP_of_readRecords hrecords, ← length_layout_nil]
  simpa [TypeGraph.size] using congrArg List.length hstands

theorem registeredCount_finalGraph_collected :
    (finalGraph (collected document) table properties).registeredCount = recordCount data := by
  have hregistry : (finalGraph (collected document) table properties).registeredCount =
      (collected document).graph.registeredCount := Std.TreeMap.size_map
  have hplaces := places_collected (length_le_of_records hrecords)
  rw [← countP_of_readRecords hrecords]
  exact hregistry.trans (hplaces.registeredCount.trans (Nat.zero_add _))

theorem exists_place_finalGraph (hterminals : (collected document).graph.terminals = .ok table)
    (haddressable : (finalGraph (collected document) table properties).Addressable) {k : ℕ} {json : Json}
    (hjson : data[k]? = some json) (hnull : json.isNull = false) : ∃ record t,
      document.records[k]? = some (some record) ∧
      (finalGraph (collected document) table properties).registered? ⟨k.toUInt32⟩ = some t ∧
      t.val.toNat = recordCount (data.take k) + mentionCount (document.records.take (k + 1)) ∧
      (firstMentions (mentionsOf (document.records.take k)) record).map Node.placeholder <:+
        (finalGraph (collected document) table properties).nodes.toList.take t.val.toNat := by
  have hlen := length_le_of_records hrecords
  obtain ⟨record, hread⟩ := Document.exists_read hrecords hjson hnull
  have hk := (Document.getElem?_records hrecords).2 ⟨json, hjson, hnull, hread⟩
  obtain ⟨hlt, hsuffix⟩ := exists_front_of_layout (standsFor?_finalGraph_collected hrecords) hk
  have hplace : (layout [] (document.records.take k)).length +
      (firstMentions (mentionsOf (document.records.take k)) record).length =
      recordCount (data.take k) + mentionCount (document.records.take (k + 1)) := by
    rw [length_layout_nil, countP_take_of_readRecords hrecords, mentionCount_take_succ hk]
    omega
  have hregistered := (places_collected hlen).registered k record hk
  have hstart : ({} : Resolver).graph.size = 0 := rfl
  rw [hstart, Nat.zero_add, Nat.zero_add, List.nil_append, hplace] at hregistered
  rw [hplace] at hlt hsuffix
  rw [Array.length_toList] at hlt
  have hbound : recordCount (data.take k) + mentionCount (document.records.take (k + 1)) < 0x100000000 :=
    Nat.lt_of_lt_of_le hlt haddressable.nodes
  refine ⟨record, _, hk, (registered?_finalGraph (registers_collected hlen).collecting hterminals
    haddressable _).trans hregistered, toNat_toUInt32 hbound, ?_⟩
  rwa [toNat_toUInt32 hbound]

end Final

theorem laidOut_of_ofDocument {options : LoadOptions} {document : Document} {environment : Environment}
    {data : List Json} (hrecords : Document.readRecords options 0 data = .ok document.records)
    (h : ofDocument options document = .ok environment) (haddressable : environment.graph.Addressable) :
    environment.LaidOut data document.records := by
  have hlen := length_le_of_records hrecords
  have hholds := holds_of_ofDocument hlen h haddressable
  have hglobal := size_eq_global_succ hlen h haddressable
  obtain ⟨table, sections, properties, hterminals, -, -, rfl⟩ := ok_of_ofDocument hlen h
  have hsize : (finalGraph (collected document) table properties).size =
      recordCount data + mentionCount document.records + 1 := size_finalGraph_collected hrecords
  exact {
    record := fun k json => exists_place_finalGraph hrecords hterminals haddressable
    placeholder_iff := hholds.placeholder_iff
    placeholder_unique := fun id => hholds.roles.element_unique (.placeholder id)
    registeredCount_eq := registeredCount_finalGraph_collected hrecords
    global_eq := Nat.succ.inj (hglobal.symm.trans hsize)
    size_eq := hsize }

/-- The places of the nodes of what is loaded follow from what its records mention. -/
theorem laidOut_of_ofJson (options : LoadOptions) (json : Json) (environment : Environment)
    (h : ofJson options json = .ok environment) (haddressable : environment.graph.Addressable) :
    ∃ members data records, json = .object members ∧ members.lookup "data" = some (.array data) ∧
      RecordsOf data records ∧ environment.LaidOut data records := by
  obtain ⟨document, hread, hload⟩ := ok_of_ofJson.1 h
  obtain ⟨o, records, ho, hrecords, rfl⟩ := Document.read_eq_ok.1 hread
  obtain ⟨members, rfl, hdata, -⟩ := Document.outline_eq_ok.1 ho
  exact ⟨members, o.data, records, rfl, hdata, ⟨(Document.readRecords_eq_ok.1 hrecords).1,
    fun _ _ => Document.getElem?_records hrecords⟩, laidOut_of_ofDocument hrecords hload haddressable⟩

/-- A null, records that mention themselves and each other, a signature inside a signature, and a record
that only a catalog mentions. -/
def placesJson : Json :=
  .object [("globals", .object [("window", .number (.int 4))]), ("types", .object []),
    ("data", .array [.object [("kind", .string "Any")], .null,
      .object [("kind", .string "Interface"), ("baseTypes", .array [.number (.int 3), .number (.int 2)]),
        ("declaredCallSignatures", .array [.object [("resolvedReturnType", .number (.int 3)),
          ("target", .object [("resolvedReturnType", .number (.int 0))])]])],
      .object [("kind", .string "Union"), ("elements", .array [.number (.int 2), .number (.int 0)])],
      .object [("kind", .string "Any")]])]

theorem laidOut_placesJson : ∃ environment, ofJson { nullRecords := .skip } placesJson = .ok environment ∧
    environment.graph.Addressable ∧ ∃ members data records, placesJson = .object members ∧
      members.lookup "data" = some (.array data) ∧ RecordsOf data records ∧ environment.LaidOut data records := by
  obtain ⟨environment, h, haddressable⟩ := Reading.exists_ok_of_any
    (x := ofJson { nullRecords := .skip } placesJson)
    (P := fun environment => environment.graph.Addressable) (by decide +kernel)
  exact ⟨environment, h, haddressable, laidOut_of_ofJson _ placesJson environment h haddressable⟩

/-- Each record, with what it is the first to mention before it, and then the global node. -/
example : ((ofJson { nullRecords := .skip } placesJson).toOption.map fun environment =>
    (environment.graph.nodes.toList.map Node.standsFor?, environment.graph.registry.toList.map (·.2))) =
    some ([none, some ⟨3⟩, some ⟨2⟩, some ⟨0⟩, none, none, none, none], [⟨0⟩, ⟨4⟩, ⟨5⟩, ⟨6⟩]) := by
  decide +kernel

end Environment

end TypeEnv
