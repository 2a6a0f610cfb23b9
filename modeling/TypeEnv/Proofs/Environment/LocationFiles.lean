import TypeEnv.Proofs.Document.CatalogTrees
import TypeEnv.Proofs.Document.ClassLayouts
import TypeEnv.Proofs.Environment.Listings
import TypeEnv.Proofs.Json.Names
import TypeEnv.Report

/-! The files that the locations of a loaded environment are gathered in. The section is taken apart into
one list of entries, and the files are made again as their entries come up. So a file has all its keys in
the order in which they are written, and files keep their order, but a file that has no entry is not made
again. -/

namespace TypeEnv

open Reading

/-- What stands in relation to two lists in a row is itself two lists in a row. -/
theorem exists_of_forall₂_append {α β : Type} {A : α → β → Prop} {l l' : List α} {r : List β}
    (h : List.Forall₂ A (l ++ l') r) :
    ∃ r₁ r₂, r = r₁ ++ r₂ ∧ List.Forall₂ A l r₁ ∧ List.Forall₂ A l' r₂ :=
  ⟨r.take l.length, r.drop l.length, (List.take_append_drop _ _).symm,
    (List.forall₂_take_append r l l' h.flip).flip, (List.forall₂_drop_append r l l' h.flip).flip⟩

/-! ### Gathering -/

namespace Locations

/-- A location under its key. -/
def keyed (entry : LocationEntry × TypeId) : String × Location :=
  ((filed entry).1.2, (filed entry).2)

/-- Adds one location after the other. -/
def gather (locations : Locations) (entries : List (LocationEntry × TypeId)) : Locations :=
  entries.foldl (fun locations entry => locations.add entry.1 entry.2) locations

theorem gather_append (locations : Locations) (entries entries' : List (LocationEntry × TypeId)) :
    gather locations (entries ++ entries') = gather (gather locations entries) entries' :=
  List.foldl_append

variable {R : Int → TypeId → Prop} {locations : Locations} {file : String}

/-- The entries of a file that is new make one file after all others. -/
theorem exists_gather_file {entries : List (LocationEntry × TypeId)} (hfresh : file ∉ locations.keys)
    (hne : entries ≠ []) (hfile : ∀ entry ∈ entries, entry.1.file = file)
    (hnodup : (entries.map fun entry => entry.1.key).Nodup) :
    ∃ located, (gather locations entries).entries = locations.entries ++ [(file, located)] ∧
      located.entries = entries.map keyed := by
  induction entries using List.reverseRecOn with
  | nil => exact absurd rfl hne
  | append_singleton entries entry ih =>
    obtain ⟨hbefore, hlast⟩ := List.forall_mem_append.1 hfile
    obtain rfl := hlast entry (List.mem_singleton_self _)
    rw [List.map_append, List.map_singleton, List.nodup_append] at hnodup
    rw [gather_append]
    cases hentries : entries with
    | nil =>
      have hnone : OrderedMap.get? locations entry.1.file = none := by
        rw [OrderedMap.get?, Option.map_eq_none_iff, List.find?_eq_none]
        exact fun file hmem heq => hfresh (List.mem_map.2 ⟨file, hmem, by simpa using heq⟩)
      refine ⟨_, OrderedMap.entries_insert_of_not_mem hfresh _, ?_⟩
      rw [show OrderedMap.get? (gather locations []) entry.1.file = none from hnone]
      rfl
    | cons _ _ =>
      rw [← hentries]
      obtain ⟨located, hlocated, hkeyed⟩ := ih (by simp [hentries]) hbefore hnodup.1
      have hsome : OrderedMap.get? (gather locations entries) entry.1.file = some located :=
        OrderedMap.mem_entries_iff.1 (by simp [hlocated])
      have hkey : entry.1.key ∉ located.keys := by
        rw [OrderedMap.keys, hkeyed, List.map_map]
        exact fun hmem => hnodup.2.2 _ hmem _ (List.mem_singleton_self _) rfl
      refine ⟨_, OrderedMap.entries_insert_of_concat hlocated _, ?_⟩
      rw [hsome, Option.getD_some, OrderedMap.entries_insert_of_not_mem hkey, hkeyed, List.map_append]
      rfl

/-- The locations of a file are those that it has written down, key by key. -/
def FileTells (R : Int → TypeId → Prop) (file : String × OrderedMap String Fields)
    (file' : String × OrderedMap String Location) : Prop :=
  file.1 = file'.1 ∧ file.2.Related (Tells R) file'.2

theorem exists_fileTells {graph : TypeGraph} {entries : OrderedMap String Fields} {pending : List LocationEntry}
    {ts : List TypeId} (hfresh : file ∉ locations.keys) (hpending : checkFile file entries = .ok pending)
    (hts : List.Forall₂ (fun p t => graph.registered? p.id = some t) pending ts) (hne : entries.entries ≠ []) :
    ∃ located, (gather locations (pending.zip ts)).entries = locations.entries ++ [(file, located)] ∧
      FileTells graph.Numbered (file, entries) (file, located) := by
  have hslots := tells_of_pends (pends_of_checkFile hpending) hts
  rw [List.forall₂_map_left_iff, List.forall₂_map_right_iff] at hslots
  have hnames : ∀ entry ∈ pending.zip ts, entry.1.file = file := by
    intro entry hentry
    obtain ⟨_, -, hslot, -⟩ := exists_of_forall₂ hslots hentry
    exact (congrArg Prod.fst hslot).symm
  have hkeys : (pending.zip ts).map (fun entry => entry.1.key) = entries.keys :=
    (map_eq_of_forall₂ (hslots.imp fun _ _ hslot => congrArg Prod.snd hslot.1)).symm
  obtain ⟨located, hlocated, hkeyed⟩ := exists_gather_file hfresh
    (fun hnil => hne (List.map_eq_nil_iff.1 (hkeys.symm.trans (congrArg _ hnil)))) hnames
    (hkeys ▸ entries.nodup_keys)
  refine ⟨located, hlocated, rfl, ?_⟩
  rw [OrderedMap.Related, hkeyed, List.forall₂_map_right_iff]
  exact hslots.imp fun _ _ hslot => ⟨congrArg Prod.snd hslot.1, hslot.2⟩

/-- Files that are new come after all others in their order, except for those without an entry. -/
theorem exists_filesTell {graph : TypeGraph} {files : List (String × OrderedMap String Fields)}
    {lists : List (List LocationEntry)} {ts : List TypeId}
    (hlists : List.Forall₂ (fun file pending => checkFile file.1 file.2 = .ok pending) files lists)
    (hts : List.Forall₂ (fun p t => graph.registered? p.id = some t) lists.flatten ts)
    (hnodup : (files.map Prod.fst).Nodup) (hfresh : ∀ file ∈ files, file.1 ∉ locations.keys) :
    ∃ located, (gather locations (lists.flatten.zip ts)).entries = locations.entries ++ located ∧
      List.Forall₂ (FileTells graph.Numbered) (files.filter (!·.2.isEmpty)) located := by
  induction hlists generalizing ts locations with
  | nil => exact ⟨[], (List.append_nil _).symm, .nil⟩
  | @cons file pending files lists hpending _ ih =>
    rw [List.map_cons, List.nodup_cons] at hnodup
    obtain ⟨hfile, hfresh⟩ := List.forall_mem_cons.1 hfresh
    rw [List.flatten_cons] at hts ⊢
    obtain ⟨ts₁, ts₂, rfl, hts₁, hts₂⟩ := exists_of_forall₂_append hts
    rw [List.zip_append hts₁.length_eq, gather_append]
    by_cases hempty : file.2.entries = []
    · obtain rfl : pending = [] := by
        rw [checkFile, hempty] at hpending
        exact (pure_eq_ok.1 hpending).symm
      rw [List.filter_cons, if_neg (by simp [OrderedMap.isEmpty, hempty])]
      exact ih hts₂ hnodup.2 hfresh
    · obtain ⟨located, hlocated, htells⟩ := exists_fileTells hfile hpending hts₁ hempty
      have hstill : ∀ other ∈ files, other.1 ∉ OrderedMap.keys (gather locations (pending.zip ts₁)) := by
        intro other hother hmem
        rw [OrderedMap.keys, hlocated, List.map_append, List.mem_append] at hmem
        rcases hmem with hmem | hmem
        · exact hfresh other hother hmem
        · obtain heq : other.1 = file.1 := by simpa using hmem
          exact hnodup.1 (heq ▸ List.mem_map_of_mem hother)
      obtain ⟨rest, hrest, hall⟩ := ih hts₂ hnodup.2 hstill
      refine ⟨(file.1, located) :: rest, ?_, ?_⟩
      · rw [hrest, hlocated, List.append_assoc]
        rfl
      · rw [List.filter_cons, if_pos (by simp [OrderedMap.isEmpty, hempty])]
        exact .cons htells hall

/-! ### Files as they are written -/

/-- What a location says where it is written. An array is the object that has its items under the names. -/
inductive Written : Json → Fields → Prop
  | object {members : List (String × Json)} {fields : Fields}
    (kind : members.lookup "kind" = some (.string fields.kind))
    (type : members.lookup "type" = some (.number (.int fields.type)))
    (debug : (members.lookup "debug").getD (.string "") = .string fields.debug) :
    Written (.object members) fields
  | array {items : List Json} {fields : Fields} (length_le : items.length ≤ 3)
    (object : Written (.object (["kind", "type", "debug"].zip items)) fields) : Written (.array items) fields

theorem written_of_ofMembers {members : List (String × Json)} {fields : Fields}
    (hnodup : (members.map Prod.fst).Nodup) (h : fieldsLayout.ofMembers members = .ok fields) :
    Written (.object members) fields := by
  rw [← toOption_eq_some, Layout.ofMembers_eq_readEach fieldsLayout_fits.lawful hnodup] at h
  obtain ⟨kind, hkind, type, htype, debug, hdebug, ⟨⟩⟩ :=
    (Layout.readEach_needed (fun _ _ => Json.readText_eq_ok) fun _ =>
      Layout.readEach_field .reference (fun _ => toOption_map _ _) rfl fun _ =>
      Layout.readEach_optional (fun _ _ => Json.readText_eq_ok) rfl fun _ => Iff.rfl).1 h
  exact .object hkind (readField?_reference.1 htype).1 hdebug

theorem written_of_read {json : Json} {fields : Fields} (hdiffer : json.NamesDiffer)
    (h : fieldsLayout.read json = .ok fields) : Written json fields := by
  obtain ⟨members, hmembers, hread⟩ := fieldsLayout_fits.read_eq_ok.1 h
  have hwritten := written_of_ofMembers (fieldsLayout_fits.nodup_of_members hmembers hdiffer) hread
  cases hmembers with
  | object => exact hwritten
  | array hlength => exact .array hlength hwritten

/-- Nothing is written in the file. -/
def isBare : Json → Bool
  | .object [] => true
  | _ => false

/-- The file is the one that is written under the same name: it has the keys that are written, in their order,
and each location says what is written. -/
def FileIs (R : Int → TypeId → Prop) (file : String × Json) (file' : String × OrderedMap String Location) : Prop :=
  file.1 = file'.1 ∧ ∃ entries, file.2 = .object entries ∧
    List.Forall₂ (fun entry located => entry.1 = located.1 ∧ ∃ fields, Written entry.2 fields ∧
      Tells R fields located.2) entries file'.2.entries

/-- What is read of the file is what is written in it. -/
def ReadAs (file : String × Json) (entry : String × OrderedMap String Fields) : Prop :=
  file.1 = entry.1 ∧ ∃ members, file.2 = .object members ∧
    List.Forall₂ (fun member slot => member.1 = slot.1 ∧ Written member.2 slot.2) members entry.2.entries

/-- A map holds what is written under each name. -/
theorem exists_members_of_readMap {α : Type} {read : Json → Except Fault α} {P : Json → α → Prop}
    (hread : ∀ value a, value.NamesDiffer → read value = .ok a → P value a) {json : Json} {m : OrderedMap String α}
    (hdiffer : json.NamesDiffer) (h : json.readMap read = .ok m) : ∃ members, json = .object members ∧
      List.Forall₂ (fun member entry => member.1 = entry.1 ∧ P member.2 entry.2) members m.entries := by
  obtain ⟨members, rfl, hentries⟩ := (Json.readMap_eq_ok hdiffer).1 h
  rw [Json.NamesDiffer, Json.membersDiffer_iff] at hdiffer
  refine ⟨members, rfl, forall₂_imp_mem hentries ?_⟩
  rintro member hmember entry ⟨hname, hvalue⟩
  exact ⟨hname, hread _ _ (hdiffer.2 _ (List.mem_map_of_mem hmember)) hvalue⟩

theorem exists_files_of_readMap {json : Json} {m : OrderedMap String (OrderedMap String Fields)}
    (hdiffer : json.NamesDiffer) (h : json.readMap (·.readMap fieldsLayout.read) = .ok m) :
    ∃ files, json = .object files ∧ List.Forall₂ ReadAs files m.entries :=
  exists_members_of_readMap (fun _ _ => exists_members_of_readMap fun _ _ => written_of_read) hdiffer h

theorem ReadAs.isBare_eq {file : String × Json} {entry : String × OrderedMap String Fields} (h : ReadAs file entry) :
    isBare file.2 = entry.2.isEmpty := by
  obtain ⟨-, members, hfile, hmembers⟩ := h
  obtain ⟨_, ⟨slots, _⟩⟩ := entry
  rw [hfile]
  cases hmembers <;> rfl

theorem ReadAs.fileIs {R : Int → TypeId → Prop} {file : String × Json} {entry : String × OrderedMap String Fields}
    {located : String × OrderedMap String Location} (h : ReadAs file entry) (htells : FileTells R entry located) :
    FileIs R file located := by
  obtain ⟨hname, members, hfile, hmembers⟩ := h
  obtain ⟨hname', hrelated⟩ := htells
  refine ⟨hname.trans hname', members, hfile, forall₂_trans ?_ hmembers hrelated⟩
  rintro member slot location ⟨hkey, hslot⟩ ⟨hkey', hlocation⟩
  exact ⟨hkey.trans hkey', slot.2, hslot, hlocation⟩

end Locations

namespace Environment

variable {options : LoadOptions} {environment : Environment}

theorem exists_filesTell_of_ofJson {json : Json} (h : ofJson options json = .ok environment) :
    ∃ c, Document.canonical? json = some c ∧
      List.Forall₂ (Locations.FileTells environment.graph.Numbered)
        (c.locations.entries.filter (!·.2.isEmpty)) environment.locations.entries := by
  obtain ⟨document, hread, hload⟩ := ok_of_ofJson.1 h
  obtain ⟨c, hc, hsections⟩ := Document.exists_canonical_of_read hread
  obtain ⟨table, sections, properties, -, hnamed, -, rfl⟩ :=
    ok_of_ofDocument (Document.length_le_of_read hread) hload
  obtain ⟨lists, hlists, hpending⟩ := bind_eq_ok.1 hsections.locations
  obtain ⟨ts, hts, hlocations⟩ := hnamed.locations
  rw [← pure_eq_ok.1 hpending] at hts hlocations
  have hfresh : ∀ file ∈ c.locations.entries, file.1 ∉ (∅ : Locations).keys := fun _ _ => List.not_mem_nil
  obtain ⟨located, hlocated, htells⟩ :=
    Locations.exists_filesTell (mapM_eq_ok.1 hlists) hts c.locations.nodup_keys hfresh
  have hentries : sections.locations.entries = located := by
    rw [hlocations]
    exact hlocated
  -- A global node leaves the registry as it is, so files are told by either graph.
  exact ⟨c, hc, hentries ▸ htells⟩

/-- Of the files in the section of locations, those with an entry are gathered, in their order. They are
all the files, in number as well, exactly if each has an entry. -/
theorem locations_of_ofJson {members : List (String × Json)} {written : Json}
    (h : ofJson options (.object members) = .ok environment) (hdiffer : (Json.object members).NamesDiffer)
    (hwritten : members.lookup "locations" = some written) (hnull : written.isNull = false) :
    ∃ files, written = .object files ∧
      List.Forall₂ (Locations.FileIs environment.graph.Numbered) (files.filter fun file => !Locations.isBare file.2)
        environment.locations.entries ∧
      (List.Forall₂ (Locations.FileIs environment.graph.Numbered) files environment.locations.entries ↔
        ∀ file ∈ files, Locations.isBare file.2 = false) ∧
      ((Summary.of environment).locationFiles = files.length ↔ ∀ file ∈ files, Locations.isBare file.2 = false) := by
  obtain ⟨c, hc, htells⟩ := exists_filesTell_of_ofJson h
  obtain ⟨_, ⟨⟩, -, -, -, -, hlocations⟩ := Document.canonical?_eq_some.1 hc
  rw [readField?, hwritten, Option.elim_some] at hlocations
  have hread : written.readMap (·.readMap Locations.fieldsLayout.read) = .ok c.locations := by
    cases written with
    | null => cases hnull
    | _ => exact toOption_eq_some.1 hlocations
  rw [Json.NamesDiffer, Json.membersDiffer_iff] at hdiffer
  obtain ⟨files, rfl, hfiles⟩ := Locations.exists_files_of_readMap
    (hdiffer.2 written (List.mem_map_of_mem (mem_of_lookup hwritten))) hread
  have hall : List.Forall₂ (Locations.FileIs environment.graph.Numbered)
      (files.filter fun file => !Locations.isBare file.2) environment.locations.entries := by
    refine forall₂_trans (fun _ _ _ hread htells => hread.fileIs htells) (List.rel_filter ?_ hfiles) htells
    intro file entry hfile
    simp only [hfile.isBare_eq]
  have hlength : (files.filter fun file => !Locations.isBare file.2).length = files.length ↔
      ∀ file ∈ files, Locations.isBare file.2 = false := by
    simp [List.length_filter_eq_length_iff]
  refine ⟨files, rfl, hall, ⟨fun h => ?_, fun h => ?_⟩, ?_⟩
  · exact hlength.1 (hall.length_eq.trans h.length_eq.symm)
  · rwa [List.filter_eq_self.2 (by simpa using h)] at hall
  · rw [← hlength, hall.length_eq]
    rfl

/-- Three files, the second of them without an entry. -/
def threeFiles : List (String × Json) :=
  [("data", .array [.object [("kind", .string "Interface")]]), ("globals", .object []), ("types", .object []),
    ("locations", .object [
      ("b.ts", .object [
        ("9", .object [("type", .number (.int 0)), ("debug", .string "Later"), ("kind", .string "Interface")]),
        ("1", .array [.string "Alias", .number (.int 0)])]),
      ("none.ts", .object []),
      ("a.ts", .object [("2", .object [("kind", .string "Interface"), ("type", .number (.int 0))])])])]

theorem locations_threeFiles : ∃ environment files, ofJson {} (.object threeFiles) = .ok environment ∧
    threeFiles.lookup "locations" = some (.object files) ∧
    List.Forall₂ (Locations.FileIs environment.graph.Numbered) (files.filter fun file => !Locations.isBare file.2)
      environment.locations.entries := by
  obtain ⟨environment, henvironment, -⟩ := exists_ok_of_any (P := fun _ => True)
    (x := ofJson {} (.object threeFiles)) (by decide +kernel)
  obtain ⟨files, hfiles, hall, -⟩ := locations_of_ofJson henvironment
    (by simp [threeFiles, Json.NamesDiffer, Json.MembersDiffer, Json.ItemsDiffer]) rfl rfl
  exact ⟨environment, files, henvironment, congrArg some hfiles, hall⟩

/-- One file without an entry. -/
def bareFile : List (String × Json) :=
  [("data", .array []), ("globals", .object []), ("types", .object []),
    ("locations", .object [("a.ts", .object [])])]

/-- The one file of the section is neither exposed nor counted. -/
theorem locations_bareFile : ∃ environment, ofJson {} (.object bareFile) = .ok environment ∧
    environment.locations.keys ≠ ["a.ts"] ∧ (Summary.of environment).locationFiles ≠ 1 :=
  exists_ok_of_any (by decide +kernel)

end Environment

end TypeEnv
