import TypeEnv.Proofs.Document.RenumberedDocument
import TypeEnv.Proofs.Environment.CanonicalForm

/-! A document whose records have been moved is read whenever the document is, and is the same document
with the new numbers: the records at their new positions, and catalogs and locations that name the same
records in the same order. -/

namespace TypeEnv

open Reading RecordId

/-! ### Catalogs -/

namespace Catalog

/-- A name as it is written, with the new number of its record. -/
def renumberName (h : Int → Int) (written : List String × Int) : List String × Int :=
  (written.1, h written.2)

mutual

/-- Renumbering a tree renumbers its leaves. -/
theorem leaves_renumberTree (h : Int → Int) : ∀ (path : List String) (tree : Json),
    leaves path (renumberTree h tree) = (leaves path tree).map fun leaf => (leaf.1, renumberTree h leaf.2)
  | path, .object branches => branchLeaves_renumberBranches h path branches
  | _, .number (.int _) | _, .number (.float _) | _, .null | _, .bool _ | _, .string _ | _, .array _ => rfl

theorem branchLeaves_renumberBranches (h : Int → Int) : ∀ (path : List String) (branches : List (String × Json)),
    branchLeaves path (renumberBranches h branches) =
      (branchLeaves path branches).map fun leaf => (leaf.1, renumberTree h leaf.2)
  | _, [] => rfl
  | path, (name, tree) :: branches => by
    rw [renumberBranches, branchLeaves, branchLeaves, List.map_append, leaves_renumberTree h (path ++ [name]) tree,
      branchLeaves_renumberBranches h path branches]

end

theorem listedLeaf?_renumberTree (h : Int → Int) {leaf : List String × Json} {written : List String × Int}
    (hleaf : listedLeaf? leaf = some written) :
    listedLeaf? (leaf.1, renumberTree h leaf.2) = some (renumberName h written) := by
  obtain rfl := listedLeaf?_eq_some.1 hleaf
  rfl

theorem entryLayout_renumbers {h : Int → Int} (hkeeps : KeepsRange h) :
    entryLayout.Renumbers h (fun _ => True)
      (fun seen e e' => ("type" ∈ seen → h e.type = e'.type) ∧ e.name = e'.name)
      ObjectSort.catalogEntry.fields :=
  .cons ⟨rfl, fun value _ => Field.agrees_needed (follows_reference hkeeps value)
    fun _ _ _ _ _ hx he => ⟨fun _ => hx, he.2⟩⟩ <|
  .cons ⟨rfl, fun value _ => Field.agrees_needed (follows_plain h _ value)
    fun _ _ _ _ _ hx he => ⟨unless_read he.1 (by decide), hx⟩⟩ .nil

theorem follows_entries {h : Int → Int} (hkeeps : KeepsRange h) (items : List Json) :
    Follows (List.Forall₂ fun e e' => h e.type = e'.type ∧ e.name = e'.name) (items.mapM entryLayout.read)
      ((items.map (ObjectSort.catalogEntry.renumber h)).mapM entryLayout.read) := by
  refine .mapM (List.forall₂_map_right_iff.2 (List.forall₂_same.2 fun item _ => ?_))
  refine ((entryLayout_renumbers hkeeps).read entryLayout_fits.lawful ⟨nofun, rfl⟩ rfl fun _ _ => trivial).imp ?_
  rintro e e' ⟨seen, hseen, htype, hname⟩
  exact ⟨htype (hseen _ List.mem_cons_self rfl), hname⟩

theorem map_entries_eq {h : Int → Int} {entries entries' : List EntryFields}
    (hentries : List.Forall₂ (fun e e' => h e.type = e'.type ∧ e.name = e'.name) entries entries') :
    entries'.map (fun entry => (entry.name, entry.type)) =
      (entries.map fun entry => (entry.name, entry.type)).map (renumberName h) := by
  induction hentries with
  | nil => rfl
  | cons hentry _ ih => rw [List.map_cons, List.map_cons, List.map_cons, ih, renumberName, hentry.1, hentry.2]

theorem all_entries_eq {h : Int → Int} {entries entries' : List EntryFields}
    (hentries : List.Forall₂ (fun e e' => h e.type = e'.type ∧ e.name = e'.name) entries entries') :
    entries'.all (fun entry => !entry.name.isEmpty) = entries.all fun entry => !entry.name.isEmpty := by
  induction hentries with
  | nil => rfl
  | cons hentry _ ih => rw [List.all_cons, List.all_cons, ih, hentry.2]

theorem listing?_array (items : List Json) : listing? (.array items) =
    (items.mapM entryLayout.read).toOption.bind fun entries =>
      if entries.all fun entry => !entry.name.isEmpty then
        some (entries.map fun entry => (entry.name, entry.type))
      else none :=
  rfl

/-- The names of a catalog, with the new numbers. -/
theorem listing?_move {p : Equiv.Perm ℕ} (hkeeps : KeepsRange (renumbered p)) {optional : Bool} {json : Json}
    {written : List (List String × Int)} (h : listing? json = some written) :
    listing? ((FieldSort.catalog optional).move p json) = some (written.map (renumberName (renumbered p))) := by
  cases json with
  | array items =>
    rw [listing?_array, Option.bind_eq_some_iff] at h
    obtain ⟨entries, hentries, hwritten⟩ := h
    obtain ⟨entries', hentries', hrelated⟩ := follows_entries hkeeps items entries (toOption_eq_some.1 hentries)
    rw [FieldSort.move, listing?_array, hentries', toOption_ok, Option.bind_some, all_entries_eq hrelated,
      map_entries_eq hrelated]
    split at hwritten
    · next hall =>
      obtain rfl := Option.some.inj hwritten
      rw [if_pos hall]
    · cases hwritten
  | object branches =>
    rw [listing?, mapM_eq_some] at h
    change listing? (.object (renumberBranches (renumbered p) branches)) = _
    rw [listing?, ← renumberTree, leaves_renumberTree, mapM_eq_some, List.forall₂_map_left_iff,
      List.forall₂_map_right_iff]
    exact h.imp fun _ _ => listedLeaf?_renumberTree _
  | _ => cases h

end Catalog

/-! ### Locations -/

namespace Locations

theorem fieldsLayout_renumbers {h : Int → Int} (hkeeps : KeepsRange h) :
    fieldsLayout.Renumbers h (fun _ => True)
      (fun seen l l' => l.kind = l'.kind ∧ ("type" ∈ seen → h l.type = l'.type) ∧ l.debug = l'.debug)
      ObjectSort.location.fields :=
  .cons ⟨rfl, fun value _ => Field.agrees_needed (follows_plain h _ value)
    fun _ _ _ _ _ hx hl => ⟨hx, unless_read hl.2.1 (by decide), hl.2.2⟩⟩ <|
  .cons ⟨rfl, fun value _ => Field.agrees_needed (follows_reference hkeeps value)
    fun _ _ _ _ _ hx hl => ⟨hl.1, fun _ => hx, hl.2.2⟩⟩ <|
  .cons ⟨rfl, fun value _ => Field.agrees_optional (follows_defaulted h _ _ value)
    fun _ _ _ _ _ hx hl => ⟨hl.1, unless_read hl.2.1 (by decide), hx⟩⟩ .nil

/-- The same location as it is written, with the new number of its record. -/
def FieldsRenumbered (h : Int → Int) (fields fields' : Fields) : Prop :=
  fields.kind = fields'.kind ∧ h fields.type = fields'.type ∧ fields.debug = fields'.debug

theorem follows_readFields {h : Int → Int} (hkeeps : KeepsRange h) (value : Json) :
    Follows (FieldsRenumbered h) (fieldsLayout.read value)
      (fieldsLayout.read (ObjectSort.location.renumber h value)) := by
  refine ((fieldsLayout_renumbers hkeeps).read fieldsLayout_fits.lawful ⟨rfl, nofun, rfl⟩ rfl
    fun _ _ => trivial).imp ?_
  rintro l l' ⟨seen, hseen, hkind, htype, hdebug⟩
  exact ⟨hkind, htype (hseen _ (List.mem_cons_of_mem _ List.mem_cons_self) rfl), hdebug⟩

theorem follows_readFile {h : Int → Int} (hkeeps : KeepsRange h) (value : Json) :
    Follows (OrderedMap.Related (FieldsRenumbered h)) (value.readMap fieldsLayout.read)
      ((renumberFile h value).readMap fieldsLayout.read) := by
  cases value with
  | object entries => exact follows_readMap (follows_readFields hkeeps) entries
  | _ => exact .error _

/-- The same location with the new number of its record. -/
structure EntryMoved (p : Equiv.Perm ℕ) (entry entry' : LocationEntry) : Prop where
  file : entry.file = entry'.file
  key : entry.key = entry'.key
  id : entry.id.move p = entry'.id
  kind : entry.kind = entry'.kind
  debug : entry.debug = entry'.debug

variable {p : Equiv.Perm ℕ} {n : Nat} (hp : FixesFrom p n) (hn : n ≤ 0x100000000)

include hp hn

theorem follows_check (place place' : String) (k : Int) :
    Follows (RecordId.move p · = ·) (RecordId.check place k) (RecordId.check place' (renumbered p k)) := by
  intro id hid
  exact ⟨_, check_eq_ok.2 (hp.numberOf_move hn (check_eq_ok.1 hid)), rfl⟩

theorem follows_checkFile (file : String) {entries entries' : OrderedMap String Fields}
    (h : entries.Related (FieldsRenumbered (renumbered p)) entries') :
    Follows (List.Forall₂ (EntryMoved p)) (checkFile file entries) (checkFile file entries') := by
  refine .mapM (List.Forall₂.imp ?_ h)
  rintro ⟨key, fields⟩ ⟨key', fields'⟩ ⟨rfl, hkind, htype, hdebug⟩
  have hcheck := follows_check hp hn s!"locations.{file}.{key}" s!"locations.{file}.{key}" fields.type
  rw [htype] at hcheck
  exact hcheck.bind fun id id' hid => .ok ⟨rfl, rfl, hid, hkind, hdebug⟩

theorem follows_checkFiles {files files' : OrderedMap String (OrderedMap String Fields)}
    (h : files.Related (OrderedMap.Related (FieldsRenumbered (renumbered p))) files') :
    Follows (List.Forall₂ (EntryMoved p)) (Document.checkFiles files) (Document.checkFiles files') := by
  have hfiles : Follows (List.Forall₂ (List.Forall₂ (EntryMoved p)))
      (files.entries.mapM fun file => checkFile file.1 file.2)
      (files'.entries.mapM fun file => checkFile file.1 file.2) := by
    refine .mapM (List.Forall₂.imp ?_ h)
    rintro ⟨file, entries⟩ ⟨file', entries'⟩ ⟨rfl, hentries⟩
    exact follows_checkFile hp hn file hentries
  exact hfiles.bind fun _ _ hlists => .ok (List.rel_flatten hlists)

end Locations

/-! ### Documents -/

namespace Catalog

/-- The same name with the new number of its record. -/
def EntryMoved (p : Equiv.Perm ℕ) (entry entry' : List String × RecordId) : Prop :=
  entry.1 = entry'.1 ∧ entry.2.move p = entry'.2

theorem exists_names_moved {p : Equiv.Perm ℕ} {n : Nat} (hp : FixesFrom p n) (hn : n ≤ 0x100000000)
    {written : List (List String × Int)} {entries : CatalogEntries} (h : List.Forall₂ Names written entries) :
    ∃ entries', List.Forall₂ Names (written.map (renumberName (renumbered p))) entries' ∧
      List.Forall₂ (EntryMoved p) entries entries' := by
  refine ⟨entries.map fun entry => (entry.1, entry.2.move p), ?_, ?_⟩
  · rw [List.forall₂_map_left_iff, List.forall₂_map_right_iff]
    exact h.imp fun _ _ hentry => ⟨hentry.1, hp.numberOf_move hn hentry.2⟩
  · rw [List.forall₂_map_right_iff]
    exact List.forall₂_same.2 fun _ _ => ⟨rfl, rfl⟩

end Catalog

namespace Document

variable {options : LoadOptions} {p : Equiv.Perm ℕ} {members : List (String × Json)}

theorem lookup_moveMembers (p : Equiv.Perm ℕ) (members : List (String × Json)) {name : String}
    {sort : FieldSort} (hname : documentFields.lookup name = some sort) :
    (moveMembers p members).lookup name = (members.lookup name).map (sort.move p) := by
  have hlookup := lookup_map_values
    (fun name value => (documentFields.lookup name).elim value (·.move p value)) members name
  rw [hname] at hlookup
  exact hlookup

theorem readField?_catalog_move (hkeeps : KeepsRange (renumbered p)) {name : String} {optional : Bool}
    (hname : documentFields.lookup name = some (.catalog optional)) {written : List (List String × Int)}
    (h : readField? members name (.catalog optional) = some written) :
    readField? (moveMembers p members) name (.catalog optional) =
      some (written.map (Catalog.renumberName (renumbered p))) := by
  rw [readField?] at h ⊢
  rw [lookup_moveMembers p members hname]
  cases hjson : members.lookup name with
  | none =>
    rw [hjson] at h
    cases optional with
    | false => cases h
    | true =>
      obtain rfl := Option.some.inj h
      rfl
  | some json =>
    have hnull : ((FieldSort.catalog optional).move p json).isNull = json.isNull := by
      cases json with
      | number number => cases number <;> rfl
      | _ => rfl
    rw [hjson] at h
    replace h : (if optional && json.isNull then (some [] : Option (List (List String × Int)))
      else Catalog.listing? json) = some written := h
    change (if optional && ((FieldSort.catalog optional).move p json).isNull then
      (some [] : Option (List (List String × Int))) else _) = _
    rw [hnull]
    split at h
    · next hblank =>
      obtain rfl := Option.some.inj h
      exact if_pos hblank
    · next hjson =>
      rw [if_neg hjson]
      exact Catalog.listing?_move hkeeps h

theorem exists_locations_move (hkeeps : KeepsRange (renumbered p))
    {files : OrderedMap String (OrderedMap String Locations.Fields)}
    (h : readField? members "locations" .locations = some files) :
    ∃ files', readField? (moveMembers p members) "locations" .locations = some files' ∧
      files.Related (OrderedMap.Related (Locations.FieldsRenumbered (renumbered p))) files' := by
  rw [readField?] at h ⊢
  rw [lookup_moveMembers p members rfl]
  cases hjson : members.lookup "locations" with
  | none =>
    rw [hjson] at h
    obtain rfl := Option.some.inj h
    exact ⟨_, rfl, .nil⟩
  | some json =>
    rw [hjson] at h
    cases json with
    | null =>
      obtain rfl := Option.some.inj h
      exact ⟨_, rfl, .nil⟩
    | object entries =>
      obtain ⟨files', hfiles', hrelated⟩ :=
        follows_readMap (Locations.follows_readFile hkeeps) entries files (toOption_eq_some.1 h)
      exact ⟨files', toOption_eq_some.2 hfiles', hrelated⟩
    | _ => cases h

/-- The same document with the records at their new positions. -/
structure Moved (p : Equiv.Perm ℕ) (document document' : Document) : Prop where
  records : RecordsMoved p document.records document'.records
  globals : List.Forall₂ (Catalog.EntryMoved p) document.globals document'.globals
  types : List.Forall₂ (Catalog.EntryMoved p) document.types document'.types
  ambient : List.Forall₂ (Catalog.EntryMoved p) document.ambient document'.ambient
  locations : List.Forall₂ (Locations.EntryMoved p) document.locations document'.locations

/-- A document that reads is read with its records moved. -/
theorem exists_read_move {data : List Json} (hdata : members.lookup "data" = some (.array data))
    (hp : FixesFrom p data.length) {document : Document}
    (h : Document.read options (.object members) = .ok document) :
    ∃ document', Document.read options (Document.move p (.object members)) = .ok document' ∧
      document.Moved p document' := by
  obtain ⟨o, records, ho, hrecords, rfl⟩ := Document.read_eq_ok.1 h
  obtain ⟨_, ⟨⟩, hdata', hglobals, htypes, hambient, hlocations⟩ := outline_eq_ok.1 ho
  obtain rfl : data = o.data := by simpa using hdata.symm.trans hdata'
  have hn := length_le_of_readRecords hrecords
  have hkeeps := hp.keepsRange hn
  obtain ⟨records', hrecords', hmoved⟩ := exists_readRecords_moved hp hrecords
  obtain ⟨globals, hglobals, hnames⟩ := requiredCatalog_eq_ok.1 hglobals
  obtain ⟨globals', hglobals', hgmoved⟩ := Catalog.exists_names_moved hp hn hnames
  obtain ⟨types, htypes, hnames⟩ := requiredCatalog_eq_ok.1 htypes
  obtain ⟨types', htypes', htmoved⟩ := Catalog.exists_names_moved hp hn hnames
  obtain ⟨ambient, hambient, hnames⟩ := optionalCatalog_eq_ok.1 hambient
  obtain ⟨ambient', hambient', hamoved⟩ := Catalog.exists_names_moved hp hn hnames
  obtain ⟨files, hfiles, hchecked⟩ := optionalLocations_eq_ok.1 hlocations
  obtain ⟨files', hfiles', hrelated⟩ := exists_locations_move hkeeps hfiles
  obtain ⟨locations', hlocations', hlmoved⟩ := Locations.follows_checkFiles hp hn hrelated _ hchecked
  have houtline : outline (Document.move p (.object members)) = .ok ⟨globals', types', ambient', locations',
      moved p (o.data.map fun item =>
        (ObjectSort.record (Record.kindOf? item)).renumber (renumbered p) item)⟩ := by
    refine outline_eq_ok.2 ⟨moveMembers p members, rfl, ?_, ?_, ?_, ?_, ?_⟩
    · rw [lookup_moveMembers p members rfl, hdata]
      rfl
    · exact requiredCatalog_eq_ok.2 ⟨_, readField?_catalog_move hkeeps rfl hglobals, hglobals'⟩
    · exact requiredCatalog_eq_ok.2 ⟨_, readField?_catalog_move hkeeps rfl htypes, htypes'⟩
    · exact optionalCatalog_eq_ok.2 ⟨_, readField?_catalog_move hkeeps rfl hambient, hambient'⟩
    · exact optionalLocations_eq_ok.2 ⟨files', hfiles', hlocations'⟩
  exact ⟨_, Document.read_eq_ok.2 ⟨_, records', houtline, hrecords', rfl⟩, hmoved, hgmoved, htmoved,
    hamoved, hlmoved⟩

end Document

end TypeEnv
