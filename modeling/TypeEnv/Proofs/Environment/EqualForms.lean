import TypeEnv.Proofs.Environment.Placement
import TypeEnv.Proofs.Environment.Renumbering
import TypeEnv.Proofs.Graph.Traversal
import Mathlib.Data.List.DropRight

/-! Documents whose records describe the same types, each at its position, while they write them down in
different ways. Such records mention the same records, though in another order, so as many placeholders are
made for each of them, and all nodes and signatures get the handles that they had. Only the placeholders that
are made for one record can come in another order. -/

namespace TypeEnv

/-! ### Lists -/

theorem nodup_eraseDups {α : Type} [BEq α] [LawfulBEq α] (l : List α) : l.eraseDups.Nodup := by
  induction l using List.reverseRecOn with
  | nil => exact List.nodup_nil
  | append_singleton l a ih =>
    rw [OrderedMap.eraseDups_concat]
    split
    · exact ih
    · next ha => exact ih.append (List.nodup_singleton a) (by simpa using ha)

theorem perm_eraseDups {α : Type} [BEq α] [LawfulBEq α] {l l' : List α} (h : ∀ a, a ∈ l ↔ a ∈ l') :
    l.eraseDups.Perm l'.eraseDups :=
  (List.perm_ext_iff_of_nodup (nodup_eraseDups l) (nodup_eraseDups l')).2 fun a => by
    rw [List.mem_eraseDups, List.mem_eraseDups, h]

/-! ### Related by nothing but equality -/

theorem Locations.Related.eq {x y : Locations} (h : Locations.Related (· = ·) x y) : x = y := by
  refine OrderedMap.Related.eq (List.Forall₂.imp ?_ h)
  rintro file file' ⟨hkey, hfile⟩
  refine ⟨hkey, OrderedMap.Related.eq (List.Forall₂.imp ?_ hfile)⟩
  rintro ⟨key, location⟩ ⟨_, location'⟩ ⟨rfl, htype, hkind, hdebug⟩
  exact ⟨rfl, by cases location; cases location'; simp_all⟩

theorem Signature.Related.eq {α σ : Type} {x y : Signature α σ} (h : x.Related (· = ·) (· = ·) y) : x = y := by
  obtain ⟨hheader, htarget, hunions⟩ := h
  cases x
  cases y
  simp only [Signature.mk.injEq]
  exact ⟨hheader.eq, eq_of_rel htarget, eq_of_forall₂ hunions⟩

theorem RecordId.move_refl (id : RecordId) : id.move (Equiv.refl ℕ) = id := id.word_eq

/-! ### Nodes -/

theorem Node.isPlaceholder_eq (node : Node) : node.isPlaceholder = node.standsFor?.isSome := by
  cases node <;> rfl

namespace TypeGraph

/-- The placeholders directly in front of node `t`. -/
def front (graph : TypeGraph) (t : TypeId) : List Node :=
  (graph.nodes.toList.take t.val.toNat).rtakeWhile Node.isPlaceholder

/-- Node `u` is one of the placeholders directly in front of node `t`. -/
def InFront (graph : TypeGraph) (u t : TypeId) : Prop :=
  u.val < t.val ∧ t.val.toNat ≤ u.val.toNat + (graph.front t).length

/-- Nodes of one form and nodes that stand in for one record are the same. -/
theorem node?_eq_of_standsFor {graph graph' : TypeGraph} {u : TypeId}
    (hform : ∀ form, graph'.node? u = some (.form form) ↔ graph.node? u = some (.form form))
    (hstands : (graph.nodes.toList.map Node.standsFor?)[u.val.toNat]? =
      (graph'.nodes.toList.map Node.standsFor?)[u.val.toNat]?) : graph'.node? u = graph.node? u := by
  rw [List.getElem?_map, List.getElem?_map, Array.getElem?_toList, Array.getElem?_toList] at hstands
  change (graph.node? u).map _ = (graph'.node? u).map _ at hstands
  cases hu : graph.node? u with
  | none => simpa [hu] using hstands.symm
  | some node =>
    rw [hu] at hstands
    obtain ⟨node', hu', hsame⟩ := Option.map_eq_some_iff.1 hstands.symm
    cases node with
    | form form => exact (hform form).2 hu
    | placeholder id => rw [hu', Node.eq_placeholder_of_standsFor? hsame]

end TypeGraph

namespace Environment

open Resolver

/-- How many nodes there are before the node of the record at position `k`. -/
def place (records : List (Option (NestedRecord RecordId))) (k : ℕ) : ℕ :=
  (records.take k).countP Option.isSome + mentionCount (records.take (k + 1))

section Records

/-- Positions that hold no record or records of the same type. -/
def SameTypes (records records' : List (Option (NestedRecord RecordId))) : Prop :=
  List.Forall₂ (Option.Rel fun record record' => record.form = record'.form) records records'

variable {records records' : List (Option (NestedRecord RecordId))} {before before' : List RecordId}
  {record record' : NestedRecord RecordId} (h : SameTypes records records')

include h

namespace SameTypes

theorem take (k : ℕ) : SameTypes (records.take k) (records'.take k) := List.forall₂_take k h

theorem exists_right {k : ℕ} (hk : records[k]? = some (some record)) :
    ∃ record', records'[k]? = some (some record') ∧ record.form = record'.form := by
  obtain ⟨found, hfound, hrel⟩ := exists_getElem?_of_forall₂ h hk
  cases hrel with
  | some hform => exact ⟨_, hfound, hform⟩

theorem symm : SameTypes records' records :=
  h.flip.imp fun _ _ hrel => rel_imp (rel_flip hrel) fun _ _ => Eq.symm

theorem countP_eq : records.countP Option.isSome = records'.countP Option.isSome := by
  induction h with
  | nil => rfl
  | cons hrel _ ih => cases hrel <;> simp [ih]

theorem mem_mentionsOf_iff {id : RecordId} : id ∈ mentionsOf records ↔ id ∈ mentionsOf records' := by
  induction h with
  | nil => rfl
  | cons hrel _ ih =>
    cases hrel with
    | none => exact ih
    | some hform => rw [mentionsOf_some, mentionsOf_some, List.mem_append, List.mem_append, ih,
        Record.mem_mentions_iff hform]

theorem mentionCount_eq : mentionCount records = mentionCount records' :=
  (perm_eraseDups fun _ => h.mem_mentionsOf_iff).length_eq

theorem place_eq (k : ℕ) : place records k = place records' k := by
  rw [place, place, (h.take k).countP_eq, (h.take (k + 1)).mentionCount_eq]

theorem firstSignature_eq (k : ℕ) : firstSignature records k = firstSignature records' k := by
  have hsignatures : List.Forall₂ (· = ·) ((records.take k).map signaturesIn)
      ((records'.take k).map signaturesIn) := by
    rw [List.forall₂_map_left_iff, List.forall₂_map_right_iff]
    refine (h.take k).imp fun _ _ hrel => ?_
    cases hrel with
    | none => rfl
    | some hform => rw [signaturesIn, signaturesIn, hform]
  rw [firstSignature, firstSignature, eq_of_forall₂ hsignatures]

theorem rowsFrom_eq (start : ℕ) : rowsFrom start records = rowsFrom start records' := by
  induction h generalizing start with
  | nil => rfl
  | cons hrel _ ih =>
    cases hrel with
    | none => exact ih start
    | some hform => rw [rowsFrom, rowsFrom, hform, ih]

end SameTypes

end Records

/-! ### Layouts -/

section Layouts

variable {records records' : List (Option (NestedRecord RecordId))} {before before' : List RecordId}
  {record record' : NestedRecord RecordId} (hbefore : ∀ id, id ∈ before ↔ id ∈ before')

include hbefore

theorem firstMentions_perm (h : record.form = record'.form) :
    (firstMentions before record).Perm (firstMentions before' record') := by
  refine perm_eraseDups fun id => ?_
  simp [List.removeAll, Record.mem_mentions_iff h, hbefore]

theorem firstMentions_congr (record : NestedRecord RecordId) :
    firstMentions before record = firstMentions before' record := by
  have hremove : record.mentions.removeAll before = record.mentions.removeAll before' := by
    refine List.filter_congr fun id _ => ?_
    simp [hbefore]
  rw [firstMentions, hremove, firstMentions]

theorem mem_mentioned_iff (h : record.form = record'.form) (id : RecordId) :
    id ∈ before ++ record.mentions ↔ id ∈ before' ++ record'.mentions := by
  rw [List.mem_append, List.mem_append, hbefore, Record.mem_mentions_iff h]

/-- Where layouts differ, they have the placeholders for a record that differs. -/
theorem SameTypes.exists_front_of_ne (h : SameTypes records records') {i : ℕ}
    (hne : (layout before records)[i]? ≠ (layout before' records')[i]?) :
    ∃ (k : ℕ) (record : NestedRecord RecordId), records[k]? = some (some record) ∧ records'[k]? ≠ records[k]? ∧
      (layout before (records.take k)).length ≤ i ∧ i < (layout before (records.take k)).length +
        (firstMentions (before ++ mentionsOf (records.take k)) record).length := by
  induction h generalizing before before' i with
  | nil => exact absurd rfl hne
  | @cons first first' records records' hrel _ ih =>
    cases hrel with
    | none =>
      obtain ⟨k, record, hk, hdiffers, hi⟩ := ih hbefore hne
      exact ⟨k + 1, record, hk, hdiffers, hi⟩
    | @some record record' hform =>
      have hlength := (firstMentions_perm hbefore hform).length_eq
      rw [layout, layout] at hne
      rcases Nat.lt_or_ge i (firstMentions before record).length with hi | hi
      · refine ⟨0, record, rfl, fun heq => hne ?_, Nat.zero_le _, by simpa [layout, mentionsOf] using hi⟩
        obtain rfl : record' = record := by simpa using heq
        rw [List.getElem?_append_left (by simpa using hi),
          List.getElem?_append_left (by simpa [← hlength] using hi), firstMentions_congr hbefore]
      · obtain ⟨j, rfl⟩ := Nat.exists_eq_add_of_le hi
        rw [List.getElem?_append_right (by simp), List.getElem?_append_right (by simp [← hlength])] at hne
        simp only [List.length_map, ← hlength, Nat.add_sub_cancel_left] at hne
        cases j with
        | zero => exact absurd rfl hne
        | succ j =>
          obtain ⟨k, found, hk, hdiffers, hle, hlt⟩ := ih (mem_mentioned_iff hbefore hform) hne
          refine ⟨k + 1, found, hk, hdiffers, ?_⟩
          rw [List.take_succ_cons, layout, mentionsOf_some, ← List.append_assoc]
          simp only [List.length_append, List.length_map, List.length_cons] at hlt ⊢
          omega

end Layouts

/-! ### Arenas -/

section Arena

variable {records : List (Option (NestedRecord RecordId))} {record : NestedRecord RecordId} {k : ℕ}

theorem place_eq (hk : records[k]? = some (some record)) : place records k =
    (layout [] (records.take k)).length + (firstMentions (mentionsOf (records.take k)) record).length := by
  rw [place, mentionCount_take_succ hk, length_layout_nil, Nat.add_assoc]

/-- The nodes of a graph, and of which of them are the nodes of the records. -/
structure Arranged (graph : TypeGraph) (records : List (Option (NestedRecord RecordId))) : Prop where
  standsFor : graph.nodes.toList.map Node.standsFor? = layout [] records ++ [none]
  registered : ∀ (id : RecordId) record, records[id.val.toNat]? = some (some record) →
    graph.registered? id = some ⟨(place records id.val.toNat).toUInt32⟩

theorem arranged_of_ofDocument {options : LoadOptions} {document : Document} {environment : Environment}
    (hlen : document.records.length ≤ 0x100000000) (h : ofDocument options document = .ok environment)
    (haddressable : environment.graph.Addressable) : Arranged environment.graph document.records := by
  obtain ⟨table, sections, properties, hterminals, -, -, rfl⟩ := ok_of_ofDocument hlen h
  have hplaces := places_collected hlen
  refine ⟨?_, fun id record hk => ?_⟩
  · have hstands := standsFor?_finalGraph (collected document) table properties
    rw [hplaces.nodes] at hstands
    exact hstands
  · have hregistered := hplaces.registered _ record hk
    have hstart : ({} : Resolver).graph.size = 0 := rfl
    rw [hstart, Nat.zero_add, Nat.zero_add, List.nil_append, ← place_eq hk, id.word_eq] at hregistered
    exact (registered?_finalGraph (registers_collected hlen).collecting hterminals haddressable id).trans hregistered

theorem layout_eq_nil_or_concat (before : List RecordId) (records : List (Option (NestedRecord RecordId))) :
    layout before records = [] ∨ ∃ front, layout before records = front ++ [none] := by
  induction records generalizing before with
  | nil => exact .inl rfl
  | cons first records ih =>
    cases first with
    | none => exact ih before
    | some record =>
      right
      rcases ih (before ++ record.mentions) with h | ⟨front, h⟩
      · exact ⟨_, by rw [layout, h]⟩
      · refine ⟨(firstMentions before record).map some ++ none :: front, ?_⟩
        rw [layout, h, List.append_assoc, List.cons_append]

/-- A run of placeholders goes back to the node of the record before it. -/
theorem rtakeWhile_isPlaceholder {nodes : List Node} {before : List RecordId} {ids : List RecordId}
    (h : nodes.map Node.standsFor? = layout before records ++ ids.map some) :
    nodes.rtakeWhile Node.isPlaceholder = ids.map Node.placeholder := by
  obtain ⟨front, rest, rfl, hfront, hrest⟩ := List.map_eq_append_iff.1 h
  obtain rfl := eq_map_placeholder hrest
  have hids : ∀ node ∈ (ids.map Node.placeholder).reverse, node.isPlaceholder = true := by
    simp [Node.isPlaceholder]
  have hnil : front.rtakeWhile Node.isPlaceholder = [] := by
    rcases layout_eq_nil_or_concat before records with hlayout | ⟨start, hlayout⟩
    · rw [hlayout, List.map_eq_nil_iff] at hfront
      rw [hfront]
      rfl
    · rw [hlayout] at hfront
      obtain ⟨init, last, rfl, -, hlast⟩ := List.map_eq_append_iff.1 hfront
      obtain ⟨node, rfl, hnode⟩ := List.map_eq_singleton_iff.1 hlast
      exact List.rtakeWhile_concat_neg _ _ node (by simp [Node.isPlaceholder_eq, hnode])
  rw [List.rtakeWhile, List.reverse_append, List.takeWhile_append_of_pos hids, List.reverse_append,
    List.reverse_reverse]
  rw [List.rtakeWhile] at hnil
  rw [hnil, List.nil_append]

/-- What stands in front of the node of a record are the placeholders for what it is the first to mention. -/
theorem Arranged.front_eq {graph : TypeGraph} (h : Arranged graph records) (hk : records[k]? = some (some record))
    {t : TypeId} (ht : t.val.toNat = place records k) :
    graph.front t = (firstMentions (mentionsOf (records.take k)) record).map Node.placeholder := by
  obtain ⟨rest, hlayout⟩ := layout_eq_of_getElem? hk
  have hstands := h.standsFor
  rw [hlayout, List.append_assoc] at hstands
  have htake := congrArg (List.take t.val.toNat) hstands
  rw [← List.map_take, List.take_left' (by simp [ht, place_eq hk])] at htake
  exact rtakeWhile_isPlaceholder htake

theorem Arranged.place_lt {graph : TypeGraph} (h : Arranged graph records)
    (hk : records[k]? = some (some record)) : place records k < graph.size := by
  rw [place_eq hk]
  exact (exists_front_of_layout h.standsFor hk).1

theorem Arranged.exists_front {graph : TypeGraph} (h : Arranged graph records) (haddressable : graph.Addressable)
    {id : RecordId} (hk : records[id.val.toNat]? = some (some record)) :
    ∃ t, graph.registered? id = some t ∧ t.val.toNat = place records id.val.toNat ∧ graph.front t =
      (firstMentions (mentionsOf (records.take id.val.toNat)) record).map Node.placeholder := by
  have hplace := toNat_toUInt32 (Nat.lt_of_lt_of_le (h.place_lt hk) haddressable.nodes)
  exact ⟨_, h.registered id record hk, hplace, h.front_eq hk hplace⟩

end Arena

/-- Handles are enough if there are enough for the records, what they mention and the global node, and for the
signatures of the records. -/
theorem addressable_iff {options : LoadOptions} {document : Document} {environment : Environment}
    (hlen : document.records.length ≤ 0x100000000) (h : ofDocument options document = .ok environment) :
    environment.graph.Addressable ↔
      document.records.countP Option.isSome + mentionCount document.records < 0x100000000 ∧
        (rowsFrom 0 document.records).length ≤ 0x100000000 := by
  obtain ⟨hsize, hcount⟩ := sizes_of_ofDocument hlen h
  rw [size_collected hlen] at hsize
  rw [signatureCount_collected hlen] at hcount
  rw [← hcount]
  constructor
  · rintro ⟨hnodes, hsignatures⟩
    exact ⟨by omega, hsignatures⟩
  · rintro ⟨hnodes, hsignatures⟩
    exact ⟨by omega, hsignatures⟩

/-! ### Documents -/

/-- The same document but for how the types at the positions of its records are written down. -/
structure Respelled (document document' : Document) : Prop where
  records : SameTypes document.records document'.records
  globals : document'.globals = document.globals
  types : document'.types = document.types
  ambient : document'.ambient = document.ambient
  locations : document'.locations = document.locations

theorem Respelled.symm {document document' : Document} (h : Respelled document document') :
    Respelled document' document :=
  ⟨h.records.symm, h.globals.symm, h.types.symm, h.ambient.symm, h.locations.symm⟩

section Documents

variable {options : LoadOptions} {document document' : Document} (h : Respelled document document')
  (hlen : document.records.length ≤ 0x100000000)

include h hlen

theorem length_le_of_respelled : document'.records.length ≤ 0x100000000 := h.records.length_eq ▸ hlen

/-- A document is accepted where another that describes the same types is, with as many nodes and signatures. -/
theorem exists_ofDocument_respelled {environment : Environment}
    (hload : ofDocument options document = .ok environment) (haddressable : environment.graph.Addressable) :
    ∃ environment', ofDocument options document' = .ok environment' ∧ environment'.graph.Addressable := by
  have hlen' := length_le_of_respelled h hlen
  obtain ⟨hnodes, hrows⟩ := (addressable_iff hlen hload).1 haddressable
  have hnodes' := hnodes
  rw [h.records.countP_eq, h.records.mentionCount_eq] at hnodes'
  rw [h.records.rowsFrom_eq] at hrows
  obtain ⟨hids, hflat⟩ := (exists_ofDocument_iff hlen (size_collected hlen ▸ hnodes)).1 ⟨environment, hload⟩
  have hids' : ∀ id ∈ mentionsOf document'.records ++ sectionIds document',
      ∃ record, document'.records[id.val.toNat]? = some (some record) := by
    intro id hid
    have hsections : sectionIds document' = sectionIds document := by
      rw [sectionIds, sectionIds, h.globals, h.types, h.ambient, h.locations]
    rw [List.mem_append, hsections, ← h.records.mem_mentionsOf_iff, ← List.mem_append] at hid
    obtain ⟨record, hk⟩ := hids id hid
    obtain ⟨record', hk', -⟩ := h.records.exists_right hk
    exact ⟨record', hk'⟩
  have hflat' : qualifiedGlobal? options document' = none := by rwa [qualifiedGlobal?, h.globals]
  obtain ⟨environment', hload'⟩ :=
    (exists_ofDocument_iff hlen' (size_collected hlen' ▸ hnodes')).2 ⟨hids', hflat'⟩
  exact ⟨environment', hload', (addressable_iff hlen' hload').2 ⟨hnodes', hrows⟩⟩

end Documents

/-! ### Environments -/

/-- The environments are the same but for the order of the placeholders in front of the nodes of records that
have changed. -/
structure SameButFronts (environment environment' : Environment) (changed : RecordId → Prop) : Prop where
  registered : ∀ id, environment'.graph.registered? id = environment.graph.registered? id
  signatures : environment'.graph.signatures = environment.graph.signatures
  views : environment'.graph.views = environment.graph.views
  size_eq : environment'.graph.size = environment.graph.size
  form_iff : ∀ t form, environment'.graph.node? t = some (.form form) ↔
    environment.graph.node? t = some (.form form)
  node_eq : ∀ u,
    (∀ id t, changed id → environment.graph.registered? id = some t → ¬ environment.graph.InFront u t) →
    environment'.graph.node? u = environment.graph.node? u
  front_perm : ∀ id t, environment.graph.registered? id = some t →
    (environment'.graph.front t).Perm (environment.graph.front t)
  global : environment'.global = environment.global
  globals : environment'.globals = environment.globals
  types : environment'.types = environment.types
  ambient : environment'.ambient = environment.ambient
  locations : environment'.locations = environment.locations

section Sections

variable {environment environment' : Environment}
  (hregistered : ∀ id, environment'.graph.registered? id = environment.graph.registered? id)

include hregistered

theorem eq_of_registered (id : RecordId) (t t' : TypeId) (ht : environment.graph.registered? id = some t)
    (ht' : environment'.graph.registered? (id.move (Equiv.refl ℕ)) = some t') : t = t' := by
  rw [id.move_refl, hregistered, ht] at ht'
  exact Option.some.inj ht'

theorem eq_of_namesOf {entries : CatalogEntries} {names names' : NameTable}
    (hnames : NamesOf environment.graph entries names) (hnames' : NamesOf environment'.graph entries names') :
    names' = names := by
  have hmoved : List.Forall₂ (Catalog.EntryMoved (Equiv.refl ℕ)) entries entries :=
    List.forall₂_same.2 fun entry _ => ⟨rfl, entry.2.move_refl⟩
  exact (related_of_namesOf (eq_of_registered hregistered) hnames hnames' hmoved).eq.symm

theorem eq_of_locations {pending : List LocationEntry} {locations locations' : Locations}
    (hlocations : Locations.Of environment.graph pending locations)
    (hlocations' : Locations.Of environment'.graph pending locations') : locations' = locations := by
  have hmoved : List.Forall₂ (Locations.EntryMoved (Equiv.refl ℕ)) pending pending :=
    List.forall₂_same.2 fun entry _ => ⟨rfl, rfl, entry.id.move_refl, rfl, rfl⟩
  exact (Locations.Related.eq
    (related_of_locations (eq_of_registered hregistered) hlocations hlocations' hmoved)).symm

end Sections

section Environments

variable {options : LoadOptions} {document document' : Document} {environment environment' : Environment}
  (h : Respelled document document') (hold : environment.Holds options document)
  (hnew : environment'.Holds options document')

section Arenas

variable (harranged : Arranged environment.graph document.records)
  (harranged' : Arranged environment'.graph document'.records)

include h harranged harranged'

theorem size_eq_of_arranged : environment'.graph.size = environment.graph.size := by
  have hsize := congrArg List.length harranged.standsFor
  have hsize' := congrArg List.length harranged'.standsFor
  rw [List.length_map, List.length_append, length_layout_nil, h.records.countP_eq,
    h.records.mentionCount_eq] at hsize
  rw [List.length_map, List.length_append, length_layout_nil] at hsize'
  exact hsize'.trans hsize.symm

/-- A node that is not the same is a placeholder in front of a record that is not. -/
theorem exists_inFront_of_ne (haddressable : environment.graph.Addressable)
    (hlen : document.records.length ≤ 0x100000000) {u : TypeId}
    (hform : ∀ form, environment'.graph.node? u = some (.form form) ↔
      environment.graph.node? u = some (.form form))
    (hne : environment'.graph.node? u ≠ environment.graph.node? u) :
    ∃ (id : RecordId) (t : TypeId), document'.records[id.val.toNat]? ≠ document.records[id.val.toNat]? ∧
      environment.graph.registered? id = some t ∧ environment.graph.InFront u t := by
  have hlayouts : (layout [] document.records)[u.val.toNat]? ≠ (layout [] document'.records)[u.val.toNat]? := by
    refine fun hlayouts => hne (TypeGraph.node?_eq_of_standsFor hform ?_)
    have hlength : (layout [] document.records).length = (layout [] document'.records).length := by
      rw [length_layout_nil, length_layout_nil, h.records.countP_eq, h.records.mentionCount_eq]
    rw [harranged.standsFor, harranged'.standsFor, List.getElem?_append, List.getElem?_append, hlayouts, hlength]
  obtain ⟨k, record, hk, hdiffers, hle, hlt⟩ := h.records.exists_front_of_ne (fun _ => Iff.rfl) hlayouts
  have hbound : k < 0x100000000 := Nat.lt_of_lt_of_le (List.getElem?_eq_some_iff.1 hk).1 hlen
  have hindex : (⟨k.toUInt32⟩ : RecordId).val.toNat = k := toNat_toUInt32 hbound
  have hk' : document.records[(⟨k.toUInt32⟩ : RecordId).val.toNat]? = some (some record) := by rw [hindex, hk]
  obtain ⟨t, ht, hplace, hfront⟩ := harranged.exists_front haddressable hk'
  rw [hindex] at hplace hfront
  rw [List.nil_append] at hlt
  refine ⟨_, t, by rwa [hindex], ht, ?_, ?_⟩
  · rw [UInt32.lt_iff_toNat_lt, hplace, place_eq hk]
    exact hlt
  · rw [hplace, hfront, place_eq hk, List.length_map]
    exact Nat.add_le_add_right hle _

include hold hnew

theorem registered?_eq_of_arranged (id : RecordId) :
    environment'.graph.registered? id = environment.graph.registered? id := by
  cases hid : environment.graph.registered? id with
  | none =>
    refine Option.eq_none_iff_forall_ne_some.2 fun t ht => ?_
    obtain ⟨record', hk'⟩ := (hnew.registered_iff id).1 ⟨t, ht⟩
    obtain ⟨record, hk, -⟩ := h.records.symm.exists_right hk'
    obtain ⟨t, ht⟩ := (hold.registered_iff id).2 ⟨record, hk⟩
    cases hid.symm.trans ht
  | some t =>
    obtain ⟨record, hk⟩ := (hold.registered_iff id).1 ⟨t, hid⟩
    obtain ⟨record', hk', -⟩ := h.records.exists_right hk
    rw [harranged'.registered id record' hk', ← h.records.place_eq, ← hid,
      harranged.registered id record hk]

theorem front_perm_of_arranged (haddressable : environment.graph.Addressable)
    (haddressable' : environment'.graph.Addressable) {id : RecordId} {t : TypeId}
    (ht : environment.graph.registered? id = some t) :
    (environment'.graph.front t).Perm (environment.graph.front t) := by
  obtain ⟨record, hk⟩ := (hold.registered_iff id).1 ⟨t, ht⟩
  obtain ⟨record', hk', hform⟩ := h.records.exists_right hk
  obtain ⟨t₁, ht₁, -, hfront⟩ := harranged.exists_front haddressable hk
  obtain ⟨t₂, ht₂, -, hfront'⟩ := harranged'.exists_front haddressable' hk'
  rw [registered?_eq_of_arranged h hold hnew harranged harranged'] at ht₂
  obtain rfl := Option.some.inj (ht.symm.trans ht₁)
  obtain rfl := Option.some.inj (ht.symm.trans ht₂)
  rw [hfront, hfront']
  exact ((firstMentions_perm (fun _ => (h.records.take _).mem_mentionsOf_iff) hform).map _).symm

end Arenas

variable (hregistered : ∀ id, environment'.graph.registered? id = environment.graph.registered? id)

include hregistered

include h

/-- What is said of a record is said of another that describes the same type. -/
theorem form_eq_of_said {k : ℕ} {record record' : NestedRecord RecordId} {form form' : TypeForm TypeId SignatureId}
    (hform : record.form = record'.form) (hsaid : Says environment.graph record form)
    (hsaid' : Says environment'.graph record' form')
    (hrefs : form.signatureRefs =
      (SignatureTree.roots (firstSignature document.records k) record.form.signatureRefs).map signatureOf)
    (hrefs' : form'.signatureRefs =
      (SignatureTree.roots (firstSignature document'.records k) record'.form.signatureRefs).map signatureOf) :
    form' = form := by
  rw [Says, ← hform] at hsaid'
  have htypes : form'.Related (· = ·) (fun _ _ => True) form := by
    refine TypeForm.Related.trans ?_ (fun _ _ _ _ _ => trivial) hsaid'.flip hsaid
    intro t' id t ht' ht
    exact Option.some.inj (ht'.symm.trans ((hregistered id).trans ht))
  have hsignatures : form'.signatureRefs = form.signatureRefs := by
    rw [hrefs, hrefs', hform, h.records.firstSignature_eq]
  exact (htypes.of_signatureRefs (hsignatures ▸ forall₂_eq_self _)).eq

include hold hnew

/-- The signatures are those of the forms, and the same forms have the same signatures. -/
theorem signatures_eq_of_respelled : environment'.graph.signatures = environment.graph.signatures := by
  refine Array.ext_getElem? fun i => ?_
  have hrows := h.records.rowsFrom_eq 0
  cases hrow : (rowsFrom 0 document.records)[i]? with
  | none =>
    have hsize := hold.signatureCount_eq
    have hsize' := hnew.signatureCount_eq
    rw [← hrows] at hsize'
    rw [List.getElem?_eq_none_iff] at hrow
    rw [Array.getElem?_eq_none (hsize'.trans_le hrow), Array.getElem?_eq_none (hsize.trans_le hrow)]
  | some row =>
    obtain ⟨signature, hsignature, hrelated⟩ := hold.signature i row hrow
    obtain ⟨signature', hsignature', hrelated'⟩ := hnew.signature i row (hrows ▸ hrow)
    have hsame : signature'.Related (· = ·) (· = ·) signature := by
      refine hrelated'.flip.trans ?_ ?_ hrelated
      · intro t' id t ht' ht
        exact Option.some.inj (ht'.symm.trans ((hregistered id).trans ht))
      · rintro _ i _ rfl rfl
        rfl
    rw [hsignature, hsignature', hsame.eq]

variable (hglobal : environment'.global = environment.global)

include hglobal

theorem node?_form_of_form {t : TypeId} {form : TypeForm TypeId SignatureId}
    (ht : environment.graph.node? t = some (.form form)) : environment'.graph.node? t = some (.form form) := by
  obtain ⟨role, hrole⟩ := hold.roles.total t (TypeGraph.contains_of_node? ht)
  cases role with
  | placeholder id => cases ht.symm.trans hrole
  | record id =>
    obtain ⟨record, hk⟩ := (hold.registered_iff id).1 ⟨t, hrole⟩
    obtain ⟨record', hk', hform⟩ := h.records.exists_right hk
    obtain ⟨t₁, form₁, ht₁, hnode, hsays, hrefs⟩ := hold.record id record hk
    obtain ⟨t₂, form₂, ht₂, hnode', hsays', hrefs'⟩ := hnew.record id record' hk'
    obtain rfl := Option.some.inj (hrole.symm.trans ht₁)
    obtain rfl := Option.some.inj (hrole.symm.trans ((hregistered id).symm.trans ht₂))
    obtain rfl : form = form₁ := by simpa using ht.symm.trans hnode
    rwa [form_eq_of_said h hregistered hform hsays hsays' hrefs hrefs'] at hnode'
  | global =>
    obtain rfl := hrole
    obtain ⟨properties, hproperties, hnode⟩ := hold.global
    obtain ⟨properties', hproperties', hnode'⟩ := hnew.global
    have hglobals : environment'.globals = environment.globals :=
      eq_of_namesOf hregistered hold.sections.globals (h.globals ▸ hnew.sections.globals)
    rw [hglobals, hproperties] at hproperties'
    obtain rfl := Except.ok.inj hproperties'
    rw [← hglobal, hnode', ← hnode, ht]

end Environments

/-- What is loaded from documents that describe the same types is the same but for the order of placeholders. -/
theorem sameButFronts_of_respelled {options : LoadOptions} {document document' : Document}
    {environment environment' : Environment} (h : Respelled document document')
    (hlen : document.records.length ≤ 0x100000000) (hload : ofDocument options document = .ok environment)
    (hload' : ofDocument options document' = .ok environment') (haddressable : environment.graph.Addressable)
    (haddressable' : environment'.graph.Addressable) : SameButFronts environment environment' fun id =>
      document'.records[id.val.toNat]? ≠ document.records[id.val.toNat]? := by
  have hlen' := length_le_of_respelled h hlen
  have hold := holds_of_ofDocument hlen hload haddressable
  have hnew := holds_of_ofDocument hlen' hload' haddressable'
  have harranged := arranged_of_ofDocument hlen hload haddressable
  have harranged' := arranged_of_ofDocument hlen' hload' haddressable'
  have hsize := size_eq_of_arranged h harranged harranged'
  have hregistered := registered?_eq_of_arranged h hold hnew harranged harranged'
  have hglobal : environment'.global = environment.global := by
    have hlast := size_eq_global_succ hlen hload haddressable
    have hlast' := size_eq_global_succ hlen' hload' haddressable'
    rw [← environment.global.word_eq, ← environment'.global.word_eq]
    congr 2
    omega
  have hform : ∀ t form, environment'.graph.node? t = some (.form form) ↔
      environment.graph.node? t = some (.form form) := fun t form =>
    ⟨node?_form_of_form h.symm hnew hold (fun id => (hregistered id).symm) hglobal.symm,
      node?_form_of_form h hold hnew hregistered hglobal⟩
  exact {
    registered := hregistered
    signatures := signatures_eq_of_respelled h hold hnew hregistered
    views := hnew.views.trans hold.views.symm
    size_eq := hsize
    form_iff := hform
    node_eq := fun u hapart => by
      by_contra hne
      obtain ⟨id, t, hchanged, ht, hfront⟩ :=
        exists_inFront_of_ne h harranged harranged' haddressable hlen (hform u) hne
      exact hapart id t hchanged ht hfront
    front_perm := fun id t =>
      front_perm_of_arranged h hold hnew harranged harranged' haddressable haddressable'
    global := hglobal
    globals := eq_of_namesOf hregistered hold.sections.globals (h.globals ▸ hnew.sections.globals)
    types := eq_of_namesOf hregistered hold.sections.types (h.types ▸ hnew.sections.types)
    ambient := eq_of_namesOf hregistered hold.sections.ambient (h.ambient ▸ hnew.sections.ambient)
    locations := eq_of_locations hregistered hold.sections.locations (h.locations ▸ hnew.sections.locations) }

end Environment

end TypeEnv
