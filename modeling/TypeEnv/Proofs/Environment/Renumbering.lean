import TypeEnv.Proofs.Environment.Counterparts

/-! A document whose records are moved, and renumbered wherever they are named, describes the same
environment but for the handles of its types and signatures. Records are then taken in in another order, so
placeholders, nodes and signatures are stored in another order too; but what each of them is there for does
not depend on it, and by that each finds its counterpart. -/

namespace TypeEnv

/-- The same locations but for their types. -/
def Locations.Related (A : TypeId → TypeId → Prop) : Locations → Locations → Prop :=
  OrderedMap.Related (OrderedMap.Related fun l l' => A l.type l'.type ∧ l.kind = l'.kind ∧ l.debug = l'.debug)

namespace Environment

open Resolver Document

/-- The second environment is the first with its types renumbered by `f`, its signatures by `h` and the
records that they come from by `renumber`, and is otherwise the same. -/
structure Renumbers (renumber : RecordId → RecordId) (f : TypeId → TypeId) (h : SignatureId → SignatureId)
    (environment environment' : Environment) : Prop where
  nodes : TypeGraph.CarriesNodes renumber f h environment.graph environment'.graph
  bijOn_signatures : Set.BijOn h {s | environment.graph.ContainsSignature s}
    {s | environment'.graph.ContainsSignature s}
  signature : ∀ s signature, environment.graph.signature? s = some signature →
    ∃ signature', environment'.graph.signature? (h s) = some signature' ∧
      signature.Related (f · = ·) (h · = ·) signature'
  registered : ∀ id, environment'.graph.registered? (renumber id) = (environment.graph.registered? id).map f
  /-- No view has been derived in either. -/
  views : environment.graph.views = {} ∧ environment'.graph.views = {}
  global : f environment.global = environment'.global
  globals : environment.globals.Related (f · = ·) environment'.globals
  types : environment.types.Related (f · = ·) environment'.types
  ambient : environment.ambient.Related (f · = ·) environment'.ambient
  locations : Locations.Related (f · = ·) environment.locations environment'.locations

/-! ### Sections -/

section Sections

variable {p : Equiv.Perm ℕ} {graph graph' : TypeGraph} {A : TypeId → TypeId → Prop}
  (hA : ∀ id t t', graph.registered? id = some t → graph'.registered? (id.move p) = some t' → A t t')

include hA

theorem related_of_namesOf {entries entries' : CatalogEntries} {names names' : NameTable}
    (h : NamesOf graph entries names) (h' : NamesOf graph' entries' names')
    (hmoved : List.Forall₂ (Catalog.EntryMoved p) entries entries') : names.Related A names' := by
  obtain ⟨named, rfl, hnamed⟩ := h
  obtain ⟨named', rfl, hnamed'⟩ := h'
  have hafter : List.Forall₂ (fun entry n' => n'.1 = entry.1 ∧ graph'.registered? (entry.2.move p) = some n'.2)
      entries named' := by
    refine forall₂_trans ?_ hmoved hnamed'
    rintro entry entry' n' ⟨hpath, hid⟩ ⟨hname, ht'⟩
    exact ⟨hname.trans hpath.symm, hid ▸ ht'⟩
  refine OrderedMap.Related.ofList (forall₂_trans ?_ hnamed.flip hafter)
  rintro n entry n' ⟨hname, ht⟩ ⟨hname', ht'⟩
  exact ⟨hname.trans hname'.symm, hA entry.2 n.2 n'.2 ht ht'⟩

omit hA in
theorem related_add {x y : Locations} (h : Locations.Related A x y) {entry entry' : LocationEntry}
    (hmoved : Locations.EntryMoved p entry entry') {t t' : TypeId} (ht : A t t') :
    Locations.Related A (x.add entry t) (y.add entry' t') := by
  rw [Locations.add, Locations.add, ← hmoved.file, ← hmoved.key]
  refine OrderedMap.Related.insert h entry.file ?_
  refine OrderedMap.Related.insert ?_ entry.key ⟨ht, hmoved.kind, hmoved.debug⟩
  have hfile := OrderedMap.Related.get? h entry.file
  generalize OrderedMap.get? x entry.file = old at hfile ⊢
  generalize OrderedMap.get? y entry.file = old' at hfile ⊢
  cases hfile with
  | none => exact .nil
  | some hfile => exact hfile

theorem related_of_locations {pending pending' : List LocationEntry} {locations locations' : Locations}
    (h : Locations.Of graph pending locations) (h' : Locations.Of graph' pending' locations')
    (hmoved : List.Forall₂ (Locations.EntryMoved p) pending pending') : Locations.Related A locations locations' := by
  obtain ⟨ts, hts, rfl⟩ := h
  obtain ⟨ts', hts', rfl⟩ := h'
  have hfold : ∀ x y : Locations, Locations.Related A x y → Locations.Related A
      ((pending.zip ts).foldl (fun locations entry => locations.add entry.1 entry.2) x)
      ((pending'.zip ts').foldl (fun locations entry => locations.add entry.1 entry.2) y) := by
    induction hmoved generalizing ts ts' with
    | nil => exact fun x y hxy => hxy
    | cons hentry _ ih =>
      obtain _ | ⟨ht, hts⟩ := hts
      obtain _ | ⟨ht', hts'⟩ := hts'
      intro x y hxy
      exact ih _ hts _ hts' _ _ (related_add hxy hentry (hA _ _ _ ht (hentry.id ▸ ht')))
  exact hfold ∅ ∅ .nil

end Sections

theorem related_globalProperties {options : LoadOptions} {A : TypeId → TypeId → Prop} {globals globals' : NameTable}
    {properties properties' : OrderedMap String TypeId} (h : globals.Related A globals')
    (hok : globalProperties options globals = .ok properties)
    (hok' : globalProperties options globals' = .ok properties') : properties.Related A properties' := by
  rw [(globalProperties_eq_ok.1 hok).2, (globalProperties_eq_ok.1 hok').2]
  refine OrderedMap.Related.ofList (List.rel_filterMap ?_ h)
  rintro ⟨path, t⟩ ⟨_, t'⟩ ⟨rfl, ht⟩
  dsimp only
  cases flatName? path with
  | none => exact .none
  | some name => exact .some ⟨rfl, ht⟩

/-! ### Counterparts -/

/-- The types that have one role, but for the numbers of the records. -/
def Counterpart (p : Equiv.Perm ℕ) (environment environment' : Environment) : TypeId → TypeId → Prop :=
  Paired environment.Plays environment'.Plays (Role.move p)

/-- The signature has the place, the first part of which is the position of its record. -/
def HasPlace (records : List (Option (NestedRecord RecordId))) (place : Nat × Nat) (s : SignatureId) : Prop :=
  SignatureAt records s.val.toNat place.1 place.2

/-- The signatures that have one place, but for the positions of the records. -/
def SignatureCounterpart (p : Equiv.Perm ℕ) (records records' : List (Option (NestedRecord RecordId))) :
    SignatureId → SignatureId → Prop :=
  Paired (HasPlace records) (HasPlace records') fun place => (p place.1, place.2)

section Places

variable {records records' : List (Option (NestedRecord RecordId))} {i i' k j : Nat}
  (hle : (rowsFrom 0 records).length ≤ 0x100000000)

include hle

theorem SignatureAt.hasPlace (h : SignatureAt records i k j) : HasPlace records (k, j) (signatureOf i) := by
  have hlt := (exists_signatureAt_iff 0).1 ⟨k, j, h⟩
  rwa [HasPlace, signatureOf, toNat_toUInt32 (by omega)]

theorem exists_hasPlace_iff {place : Nat × Nat} :
    (∃ s, HasPlace records place s) ↔ ∃ i, SignatureAt records i place.1 place.2 :=
  ⟨fun ⟨s, h⟩ => ⟨s.val.toNat, h⟩, fun ⟨_, h⟩ => ⟨_, h.hasPlace hle⟩⟩

variable {p : Equiv.Perm ℕ}

omit hle in
/-- The rows of counterparts are alike, as rows of one record and of the same record moved. -/
theorem SignatureCounterpart.exists_rows (hmoved : RecordsMoved p records records') {s s' : SignatureId}
    (h : SignatureCounterpart p records records' s s') : ∃ (k : Nat) (record record' : NestedRecord RecordId)
      (row row' : Signature RecordId Nat), records[k]? = some (some record) ∧
        records'[p k]? = some (some record') ∧ record.Moved p record' ∧
        (rowsFrom 0 records)[s.val.toNat]? = some row ∧ (rowsFrom 0 records')[s'.val.toNat]? = some row' ∧
        row.Related (RecordId.move p · = ·) (SignatureTree.Moved (firstSignature records k)
          (firstSignature records' (p k)) (SignatureTree.countOfList record.form.signatureRefs)) row' := by
  obtain ⟨⟨k, j⟩, ⟨hi, found, hk, hj⟩, hi', found', hk', hj'⟩ := h
  dsimp only at hi hk hj hi' hk' hj'
  cases found with
  | none => exact absurd hj (Nat.not_lt_zero j)
  | some record =>
    obtain ⟨record', hfound', hrecord⟩ := hmoved.exists_right hk
    obtain rfl := Option.some.inj (hfound'.symm.trans hk')
    have hlt : j < (SignatureTree.rowsOfList (firstSignature records k) record.form.signatureRefs).length := by
      rwa [SignatureTree.length_rowsOfList]
    have hrow := List.getElem?_eq_getElem hlt
    obtain ⟨row', hrow', hrelated⟩ := exists_getElem?_of_forall₂ (SignatureTree.rowsOfList_related
      hrecord.form.signatureRefs (firstSignature records k) (firstSignature records' (p k))) hrow
    refine ⟨k, record, record', _, row', hk, hk', hrecord, ?_, ?_, hrelated⟩
    · rw [hi, getElem?_rowsFrom hk hj, Nat.zero_add, hrow]
    · rw [hi', getElem?_rowsFrom hk' hj', Nat.zero_add, hrow']

variable (hle' : (rowsFrom 0 records').length ≤ 0x100000000)

include hle'

/-- The handles of signatures of one record are counterparts where they differ by where the record starts. -/
theorem signatureCounterpart_of_moved {record record' : NestedRecord RecordId}
    (hk : records[k]? = some (some record)) (hk' : records'[p k]? = some (some record'))
    (hmoved : record.Moved p record') (h : SignatureTree.Moved (firstSignature records k)
      (firstSignature records' (p k)) (SignatureTree.countOfList record.form.signatureRefs) i i') :
    SignatureCounterpart p records records' (signatureOf i) (signatureOf i') := by
  obtain ⟨j, hj, hi, hi'⟩ := h
  have hplace : SignatureAt records i k j := ⟨hi, some record, hk, hj⟩
  have hplace' : SignatureAt records' i' (p k) j :=
    ⟨hi', some record', hk', by rwa [signaturesIn, ← SignatureTree.countOfList_eq hmoved.form.signatureRefs]⟩
  exact ⟨(k, j), hplace.hasPlace hle, hplace'.hasPlace hle'⟩

end Places

section Counterparts

variable {options : LoadOptions} {p : Equiv.Perm ℕ} {document document' : Document}
  {environment environment' : Environment} (hmoved : document.Moved p document')
  (hold : environment.Holds options document) (hnew : environment'.Holds options document')

include hold in
theorem labels_hasPlace :
    Labels (HasPlace document.records) {s | environment.graph.ContainsSignature s} := by
  have hlabels := (labels_signatureAt document.records).preimage SignatureId.toNat_injective
  rwa [← hold.signatureCount_eq] at hlabels

include hmoved hold hnew

section Addressable

variable (haddressable : environment.graph.Addressable) (haddressable' : environment'.graph.Addressable)

include haddressable haddressable'

omit hmoved in
/-- What a record and its moved record say is the same but for the handles. -/
theorem related_forms {record record' : NestedRecord RecordId} {form form' : TypeForm TypeId SignatureId} {k : Nat}
    (hk : document.records[k]? = some (some record)) (hk' : document'.records[p k]? = some (some record'))
    (hrecord : record.Moved p record') (hsaid : Says environment.graph record form)
    (hsaid' : Says environment'.graph record' form')
    (hrefs : form.signatureRefs =
      (SignatureTree.roots (firstSignature document.records k) record.form.signatureRefs).map signatureOf)
    (hrefs' : form'.signatureRefs =
      (SignatureTree.roots (firstSignature document'.records (p k)) record'.form.signatureRefs).map signatureOf) :
    form.Related (Counterpart p environment environment')
      (SignatureCounterpart p document.records document'.records) form' := by
  have hafter : record.form.Related (fun id t' => environment'.graph.registered? (id.move p) = some t')
      (fun _ _ => True) form' := by
    refine hrecord.form.trans ?_ (fun _ _ _ _ _ => trivial) hsaid'
    rintro id _ t' rfl ht'
    exact ht'
  have htypes : form.Related (Counterpart p environment environment') (fun _ _ => True) form' :=
    hsaid.flip.trans (fun t id t' ht ht' => ⟨.record id, ht, ht'⟩) (fun _ _ _ _ _ => trivial) hafter
  refine htypes.of_signatureRefs ?_
  rw [hrefs, hrefs', List.forall₂_map_left_iff, List.forall₂_map_right_iff]
  exact (SignatureTree.roots_moved hrecord.form.signatureRefs _ _).imp fun i i' =>
    signatureCounterpart_of_moved (hold.signatureCount_eq ▸ haddressable.signatures)
      (hnew.signatureCount_eq ▸ haddressable'.signatures) hk hk' hrecord

theorem exists_signature_counterpart {s s' : SignatureId} {signature : StoredSignature}
    (h : SignatureCounterpart p document.records document'.records s s')
    (hs : environment.graph.signature? s = some signature) :
    ∃ signature', environment'.graph.signature? s' = some signature' ∧
      signature.Related (Counterpart p environment environment')
        (SignatureCounterpart p document.records document'.records) signature' := by
  obtain ⟨k, record, record', row, row', hk, hk', hrecord, hrow, hrow', hrows⟩ := h.exists_rows hmoved.records
  obtain ⟨found, hfound, hsaid⟩ := hold.signature _ row hrow
  obtain rfl := Option.some.inj (hs.symm.trans hfound)
  obtain ⟨signature', hsignature', hsaid'⟩ := hnew.signature _ row' hrow'
  have hafter : row.Related (fun id t' => environment'.graph.registered? (id.move p) = some t')
      (fun i s' => SignatureCounterpart p document.records document'.records (signatureOf i) s') signature' := by
    refine hrows.trans ?_ ?_ hsaid'
    · rintro id _ t' rfl ht'
      exact ht'
    · rintro i i' _ hmove rfl
      exact signatureCounterpart_of_moved (hold.signatureCount_eq ▸ haddressable.signatures)
        (hnew.signatureCount_eq ▸ haddressable'.signatures) hk hk' hrecord hmove
  refine ⟨signature', hsignature', hsaid.flip.trans (fun t id t' ht ht' => ⟨.record id, ht, ht'⟩) ?_ hafter⟩
  rintro _ i s' rfl hs'
  exact hs'

end Addressable

/-- What is registered under the numbers of a record is a counterpart. -/
theorem related_globalNode {properties properties' : OrderedMap String TypeId}
    (hproperties : globalProperties options environment.globals = .ok properties)
    (hproperties' : globalProperties options environment'.globals = .ok properties') :
    (globalNode properties).Related (RecordId.move p) (Counterpart p environment environment')
      (SignatureCounterpart p document.records document'.records) (globalNode properties') := by
  have hglobals := related_of_namesOf (fun id t t' ht ht' => (⟨.record id, ht, ht'⟩ :
    Counterpart p environment environment' t t')) hold.sections.globals hnew.sections.globals hmoved.globals
  exact .form (.interface ⟨.nil, .nil, related_globalProperties hglobals hproperties hproperties', .nil, .nil,
    .none, .none⟩)

variable (hp : FixesFrom p document.records.length) (hlen : document.records.length ≤ 0x100000000)

include hp hlen

theorem exists_role_move (role : Role) :
    (∃ t, environment.Plays role t) ↔ ∃ t, environment'.Plays (role.move p) t := by
  cases role with
  | placeholder id =>
    exact (hold.placeholder_iff id).trans
      ((mem_mentionsOf_move hp hlen hmoved.records).trans (hnew.placeholder_iff _).symm)
  | record id =>
    exact (hold.registered_iff id).trans
      ((exists_record_move hp hlen hmoved.records id).trans (hnew.registered_iff _).symm)
  | global => exact ⟨fun _ => ⟨_, rfl⟩, fun _ => ⟨_, rfl⟩⟩

variable (haddressable : environment.graph.Addressable) (haddressable' : environment'.graph.Addressable)

include haddressable haddressable'

theorem exists_node_counterpart {t t' : TypeId} {node : Node} (h : Counterpart p environment environment' t t')
    (hnode : environment.graph.node? t = some node) : ∃ node', environment'.graph.node? t' = some node' ∧
      node.Related (RecordId.move p) (Counterpart p environment environment')
        (SignatureCounterpart p document.records document'.records) node' := by
  obtain ⟨role, hrole, hrole'⟩ := h
  cases role with
  | placeholder id =>
    obtain rfl := Option.some.inj (hnode.symm.trans hrole)
    exact ⟨_, hrole', .placeholder id⟩
  | record id =>
    obtain ⟨record, hk⟩ := (hold.registered_iff id).1 ⟨t, hrole⟩
    obtain ⟨record', hk', hrecord⟩ := hmoved.records.exists_right hk
    obtain ⟨t₁, form, ht₁, hform, hsaid, hrefs⟩ := hold.record id record hk
    rw [← hp.toNat_move hlen] at hk'
    obtain ⟨t₁', form', ht₁', hform', hsaid', hrefs'⟩ := hnew.record (id.move p) record' hk'
    rw [hp.toNat_move hlen] at hk' hrefs'
    obtain rfl := Option.some.inj (hrole.symm.trans ht₁)
    obtain rfl := Option.some.inj (hrole'.symm.trans ht₁')
    obtain rfl := Option.some.inj (hnode.symm.trans hform)
    exact ⟨_, hform', .form (related_forms hold hnew haddressable haddressable' hk hk' hrecord hsaid hsaid'
      hrefs hrefs')⟩
  | global =>
    obtain rfl := hrole
    obtain rfl := hrole'
    obtain ⟨properties, hproperties, hglobal⟩ := hold.global
    obtain ⟨properties', hproperties', hglobal'⟩ := hnew.global
    obtain rfl := Option.some.inj (hnode.symm.trans hglobal)
    exact ⟨_, hglobal', related_globalNode hmoved hold hnew hproperties hproperties'⟩

omit hp hlen in
theorem exists_signatures_renumbered : ∃ h : SignatureId → SignatureId,
    Set.BijOn h {s | environment.graph.ContainsSignature s} {s | environment'.graph.ContainsSignature s} ∧
      (∀ s, environment.graph.ContainsSignature s →
        SignatureCounterpart p document.records document'.records s (h s)) ∧
      ∀ s s', SignatureCounterpart p document.records document'.records s s' → h s = s' := by
  have hplace : ∀ place : Nat × Nat, (∃ s, HasPlace document.records place s) ↔
      ∃ s, HasPlace document'.records (p place.1, place.2) s := by
    intro place
    rw [exists_hasPlace_iff (hold.signatureCount_eq ▸ haddressable.signatures),
      exists_hasPlace_iff (hnew.signatureCount_eq ▸ haddressable'.signatures)]
    exact exists_signatureAt_move hmoved.records place.1 place.2
  have hlabels := labels_hasPlace hold
  have hlabels' := labels_hasPlace hnew
  obtain ⟨h, hbij, hh⟩ := hlabels.exists_bijOn hlabels' (p.prodCongr (Equiv.refl Nat)).bijective hplace
  refine ⟨h, hbij, hh, fun s s' hs => ?_⟩
  obtain ⟨place, hplace, -⟩ := id hs
  exact hlabels.right_unique hlabels' s _ s' (hh s (hlabels.mem place s hplace)) hs

theorem exists_nodes_renumbered {h : SignatureId → SignatureId}
    (hh : ∀ s s', SignatureCounterpart p document.records document'.records s s' → h s = s') :
    ∃ f, TypeGraph.CarriesNodes (RecordId.move p) f h environment.graph environment'.graph ∧
      ∀ t t', Counterpart p environment environment' t t' → f t = t' := by
  have hrole := exists_role_move hmoved hold hnew hp hlen
  have hmove := Role.bijective_move hp hlen
  have hnode : ∀ t t' node, Counterpart p environment environment' t t' →
      environment.graph.node? t = some node → ∃ node', environment'.graph.node? t' = some node' ∧
        node.Related (RecordId.move p) (Counterpart p environment environment') (h · = ·) node' := by
    intro t t' node ht hnode
    obtain ⟨node', hnode', hrelated⟩ :=
      exists_node_counterpart hmoved hold hnew hp hlen haddressable haddressable' ht hnode
    exact ⟨node', hnode', hrelated.imp_mem (fun _ _ _ => id) fun s _ => hh s⟩
  obtain ⟨f, hnodes, hf⟩ := TypeGraph.exists_carriesNodes (hold.roles.exists_right hnew.roles hrole)
    (hold.roles.exists_left hnew.roles hmove.surjective hrole) (hold.roles.right_unique hnew.roles)
    (hold.roles.left_unique hnew.roles hmove.injective) hold.inRange hnode
  refine ⟨f, hnodes, fun t t' ht => ?_⟩
  obtain ⟨role, hrole, -⟩ := id ht
  exact (hf t (hold.roles.mem role t hrole) t').1 ht

omit haddressable haddressable' in
theorem registered?_renumbered {f : TypeId → TypeId}
    (hf : ∀ t t', Counterpart p environment environment' t t' → f t = t') (id : RecordId) :
    environment'.graph.registered? (id.move p) = (environment.graph.registered? id).map f := by
  have hrole := exists_role_move hmoved hold hnew hp hlen (.record id)
  cases hid : environment.graph.registered? id with
  | none =>
    have hnone := mt hrole.2 (by simp [Plays, hid])
    exact Option.eq_none_iff_forall_not_mem.2 fun t ht => hnone ⟨t, ht⟩
  | some t =>
    obtain ⟨t', ht'⟩ := hrole.1 ⟨t, hid⟩
    rw [Option.map_some, hf t t' ⟨.record id, hid, ht'⟩]
    exact ht'

/-- Signatures and types are renumbered so that each gets the handle of its counterpart. -/
theorem exists_renumbers : ∃ f h, Renumbers (RecordId.move p) f h environment environment' := by
  obtain ⟨h, hbij, hmem, hh⟩ :=
    exists_signatures_renumbered hmoved hold hnew haddressable haddressable'
  obtain ⟨f, hnodes, hf⟩ :=
    exists_nodes_renumbered hmoved hold hnew hp hlen haddressable haddressable' hh
  have hnames : ∀ id t t', environment.graph.registered? id = some t →
      environment'.graph.registered? (id.move p) = some t' → f t = t' :=
    fun id t t' ht ht' => hf t t' ⟨.record id, ht, ht'⟩
  refine ⟨f, h, {
    nodes := hnodes
    bijOn_signatures := hbij
    signature := fun s signature hs => ?_
    registered := registered?_renumbered hmoved hold hnew hp hlen hf
    views := ⟨hold.views, hnew.views⟩
    global := hf _ _ ⟨.global, rfl, rfl⟩
    globals := related_of_namesOf hnames hold.sections.globals hnew.sections.globals hmoved.globals
    types := related_of_namesOf hnames hold.sections.types hnew.sections.types hmoved.types
    ambient := related_of_namesOf hnames hold.sections.ambient hnew.sections.ambient hmoved.ambient
    locations := related_of_locations hnames hold.sections.locations hnew.sections.locations hmoved.locations }⟩
  obtain ⟨signature', hsignature', hrelated⟩ := exists_signature_counterpart hmoved hold hnew haddressable
    haddressable' (hmem s (Array.getElem?_eq_some_iff.1 hs).1) hs
  exact ⟨signature', hsignature', { hrelated.imp hh with header := hrelated.header.imp hf }⟩

end Counterparts

/-- A document that is loaded is loaded with its records moved and renumbered too, as the same environment
but for the numbers of types, signatures and records. -/
theorem exists_renumbers_of_move (options : LoadOptions) (members : List (String × Json)) (data : List Json)
    (environment : Environment) (p : Equiv.Perm ℕ) (h : ofJson options (.object members) = .ok environment)
    (haddressable : environment.graph.Addressable) (hdata : members.lookup "data" = some (.array data))
    (hp : FixesFrom p data.length) :
    ∃ environment' f g, ofJson options (Document.move p (.object members)) = .ok environment' ∧
      Renumbers (RecordId.move p) f g environment environment' := by
  obtain ⟨document, hread, hload⟩ := ok_of_ofJson.1 h
  have hlen := Document.length_le_of_read hread
  obtain ⟨document', hread', hmoved⟩ := Document.exists_read_move hdata hp hread
  have hrecords : document.records.length = data.length := by
    obtain ⟨o, records, ho, hrecords, rfl⟩ := Document.read_eq_ok.1 hread
    obtain ⟨_, ⟨⟩, hdata', -⟩ := Document.outline_eq_ok.1 ho
    obtain rfl : data = o.data := by simpa using hdata.symm.trans hdata'
    exact (readRecords_eq_ok.1 hrecords).1
  rw [← hrecords] at hp
  have hlen' := hmoved.records.1 ▸ hlen
  obtain ⟨hsize, hcount⟩ := sizes_of_ofDocument hlen hload
  have hnodes := haddressable.nodes
  obtain ⟨environment', hload'⟩ := exists_ofDocument_move hmoved hlen hp (by omega) hload
  obtain ⟨hsize', hcount'⟩ := sizes_of_ofDocument hlen' hload'
  have haddressable' : environment'.graph.Addressable := by
    constructor
    · rw [hsize', size_collected_eq hmoved hlen hp, ← hsize]
      exact haddressable.nodes
    · rw [hcount', signatureCount_collected_eq hmoved hlen, ← hcount]
      exact haddressable.signatures
  obtain ⟨f, g, hrenumbers⟩ := exists_renumbers hmoved (holds_of_ofDocument hlen hload haddressable)
    (holds_of_ofDocument hlen' hload' haddressable') hp hlen haddressable haddressable'
  exact ⟨environment', f, g, ok_of_ofJson.2 ⟨document', hread', hload'⟩, hrenumbers⟩

/-- A reference forwards and one backwards, a signature with a target, a null, and names of all sorts. -/
def chainJson : Json :=
  .object [("globals", .object [("a", .number (.int 3))]),
    ("types", .array [.object [("type", .number (.int 0)), ("qName", .array [.string "A"])]]),
    ("locations", .object [("a.ts", .object [("1", .object [("kind", .string "Class"),
      ("type", .number (.int 0))])])]),
    ("data", .array [
      .object [("kind", .string "Interface"), ("baseTypes", .array [.number (.int 3)]),
        ("declaredCallSignatures", .array [.object [("resolvedReturnType", .number (.int 2)),
          ("target", .object [("resolvedReturnType", .number (.int 0))])]])],
      .null,
      .object [("kind", .string "Index"), ("type", .number (.int 0))],
      .object [("kind", .string "ThisType"), ("constraint", .number (.int (-1)))]])]

theorem exists_renumbers_chainJson : ∃ environment,
    ofJson { nullRecords := .skip } chainJson = .ok environment ∧ environment.graph.Addressable ∧
      FixesFrom (Equiv.swap 0 3) 4 ∧ ∃ environment' f g,
        ofJson { nullRecords := .skip } (Document.move (Equiv.swap 0 3) chainJson) = .ok environment' ∧
          Renumbers (RecordId.move (Equiv.swap 0 3)) f g environment environment' := by
  have hload : ((ofJson { nullRecords := .skip } chainJson).toOption.any fun environment =>
      environment.graph.Addressable) = true := by decide +kernel
  have hfixes : FixesFrom (Equiv.swap 0 3) 4 := fun k hk =>
    Equiv.swap_apply_of_ne_of_ne (by omega) (by omega)
  cases h : ofJson { nullRecords := .skip } chainJson with
  | error error =>
    rw [h] at hload
    cases hload
  | ok environment =>
    rw [h] at hload
    have haddressable : environment.graph.Addressable := of_decide_eq_true hload
    exact ⟨environment, rfl, haddressable, hfixes,
      exists_renumbers_of_move _ _ _ environment _ h haddressable rfl hfixes⟩

end Environment

end TypeEnv
