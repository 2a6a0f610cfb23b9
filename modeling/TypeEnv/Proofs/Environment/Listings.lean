import TypeEnv.Proofs.Environment.CanonicalForm
import Mathlib.Data.Prod.Basic

/-! What the catalogs and locations of a loaded environment list, told by what its document lists. A
path or a key that is written several times counts where it is written first and with what it is
written with last. -/

namespace TypeEnv

open Reading

/-- The node of the record that the integer `n` is the number of. -/
def TypeGraph.Numbered (graph : TypeGraph) (n : Int) (t : TypeId) : Prop :=
  ∃ id, RecordId.NumberOf n id ∧ graph.registered? id = some t

/-! ### Catalogs -/

namespace Catalog

/-- The paths that are written, each once and in the order in which they first occur, with what stands in
relation to the integers that they are written with last. -/
structure TableOf (R : Int → TypeId → Prop) (written : List (List String × Int)) (table : NameTable) :
    Prop where
  keys_eq : table.keys = (written.map Prod.fst).eraseDups
  get? : ∀ path, Option.Rel R (written.reverse.lookup path) (table.get? path)

variable {R R' : Int → TypeId → Prop} {written : List (List String × Int)} {table : NameTable}

theorem tableOf_of_related (h : (OrderedMap.ofList written).Related R table) : TableOf R written table where
  keys_eq := by
    rw [← OrderedMap.keys_ofList, OrderedMap.keys, OrderedMap.keys]
    exact (map_eq_of_forall₂ (h.imp fun _ _ hentry => hentry.1)).symm
  get? path := by
    rw [← OrderedMap.get?_ofList]
    exact h.get? path

theorem TableOf.imp (h : TableOf R written table) (hR : ∀ n t, R n t → R' n t) : TableOf R' written table where
  keys_eq := h.keys_eq
  get? path := rel_imp (h.get? path) hR

/-- An entry has the node of the integer that its path is written with last. -/
theorem TableOf.exists_of_mem (h : TableOf R written table) {path : List String} {t : TypeId}
    (hentry : (path, t) ∈ table.entries) : ∃ n, written.reverse.lookup path = some n ∧ R n t := by
  have hrel := h.get? path
  rw [OrderedMap.mem_entries_iff.1 hentry] at hrel
  cases hlast : written.reverse.lookup path with
  | none => rw [hlast] at hrel; cases hrel
  | some n =>
    rw [hlast] at hrel
    cases hrel with | some hR => exact ⟨n, rfl, hR⟩

theorem tableOf_of_namesOf {graph : TypeGraph} {entries : CatalogEntries} (h : NamesOf graph entries table)
    (hwritten : List.Forall₂ Names written entries) : TableOf graph.Numbered written table := by
  obtain ⟨named, rfl, hnamed⟩ := h
  refine tableOf_of_related (OrderedMap.Related.ofList (forall₂_trans ?_ hwritten hnamed))
  rintro _ entry _ ⟨hpath, hn⟩ ⟨hpath', ht⟩
  exact ⟨hpath.symm.trans hpath'.symm, entry.2, hn, ht⟩

theorem ne_nil_of_readField? {members : List (String × Json)} {name : String} {optional : Bool}
    (h : readField? members name (.catalog optional) = some written) : ∀ entry ∈ written, entry.1 ≠ [] := by
  rw [readField?] at h
  cases hjson : members.lookup name with
  | none =>
    rw [hjson] at h
    cases optional with
    | false => cases h
    | true =>
      obtain rfl := Option.some.inj h
      exact List.forall_mem_nil _
  | some json =>
    rw [hjson] at h
    replace h : (if (optional && json.isNull) = true then some [] else listing? json) = some written := h
    split at h
    · obtain rfl := Option.some.inj h
      exact List.forall_mem_nil _
    · exact ne_nil_of_listing? h

/-- An entry of a catalog that is written as an array. -/
def entryJson (type : Int) (path : List String) : Json :=
  .object [("type", .number (.int type)), ("qName", .array (path.map .string))]

end Catalog

/-! ### Locations -/

namespace Locations

/-- What is filed under `key` in `file`. -/
def at? {α : Type} (files : OrderedMap String (OrderedMap String α)) (file key : String) : Option α :=
  (files.get? file).bind (·.get? key)

/-- The location says what is written, with what stands in relation to the integer. -/
structure Tells (R : Int → TypeId → Prop) (fields : Fields) (location : Location) : Prop where
  type : R fields.type location.type
  kind : location.kind = fields.kind
  debug : location.debug = fields.debug

theorem at?_add (locations : Locations) (pending : LocationEntry) (t : TypeId) (file key : String) :
    at? (locations.add pending t) file key =
      if (pending.file, pending.key) = (file, key) then
        some { type := t, kind := pending.kind, debug := pending.debug }
      else at? locations file key := by
  rw [at?, at?, add, OrderedMap.update, OrderedMap.get?_insert]
  by_cases hfile : pending.file = file
  · subst hfile
    rw [if_pos rfl, Option.bind_some, OrderedMap.get?_insert]
    by_cases hkey : pending.key = key
    · simp [hkey]
    · rw [if_neg hkey, if_neg (by simpa using hkey)]
      cases OrderedMap.get? locations pending.file <;> rfl
  · rw [if_neg hfile, if_neg (by simp [hfile])]

/-- A location under its file and its key. -/
def filed (entry : LocationEntry × TypeId) : (String × String) × Location :=
  ((entry.1.file, entry.1.key), { type := entry.2, kind := entry.1.kind, debug := entry.1.debug })

/-- Files of locations hold what one table of pairs of file and key would hold. -/
theorem at?_foldl_add (entries : List (LocationEntry × TypeId)) (file key : String) :
    at? (entries.foldl (fun (locations : Locations) entry => locations.add entry.1 entry.2) ∅) file key =
      (OrderedMap.ofList (entries.map filed)).get? (file, key) := by
  induction entries using List.reverseRecOn with
  | nil => rfl
  | append_singleton entries entry ih =>
    rw [List.foldl_append, List.foldl_cons, List.foldl_nil, at?_add, ih, List.map_append,
      List.map_singleton, OrderedMap.ofList_concat, OrderedMap.get?_insert]
    rfl

/-- All that is filed, each under its file and its key. -/
def flat {α : Type} (files : OrderedMap String (OrderedMap String α)) : List ((String × String) × α) :=
  files.entries.flatMap fun file => file.2.entries.map fun entry => ((file.1, entry.1), entry.2)

theorem mem_flat_iff {α : Type} {files : OrderedMap String (OrderedMap String α)} {file key : String} {a : α} :
    ((file, key), a) ∈ flat files ↔ at? files file key = some a := by
  simp only [flat, at?, List.mem_flatMap, List.mem_map, Option.bind_eq_some_iff, Prod.exists, Prod.mk.injEq]
  constructor
  · rintro ⟨_, entries, hfile, _, _, hentry, ⟨rfl, rfl⟩, rfl⟩
    exact ⟨entries, OrderedMap.mem_entries_iff.1 hfile, OrderedMap.mem_entries_iff.1 hentry⟩
  · rintro ⟨entries, hfile, hentry⟩
    exact ⟨file, entries, OrderedMap.mem_entries_iff.2 hfile, key, a, OrderedMap.mem_entries_iff.2 hentry,
      ⟨rfl, rfl⟩, rfl⟩

theorem nodup_flat {α : Type} (files : OrderedMap String (OrderedMap String α)) :
    ((flat files).map Prod.fst).Nodup := by
  rw [flat, List.map_flatMap, List.nodup_flatMap]
  constructor
  · rintro ⟨file, entries⟩ -
    have hkeys : (entries.entries.map fun entry => (file, entry.1)).Nodup := by
      have hnodup := entries.nodup_keys.map (Prod.mk_right_injective file)
      rwa [List.map_map] at hnodup
    simpa [Function.comp_def] using hkeys
  · have hfiles := files.nodup_keys
    rw [List.Nodup, List.pairwise_map] at hfiles
    refine hfiles.imp fun {file file'} hne => ?_
    intro pair hpair hpair'
    simp only [List.map_map, List.mem_map, Function.comp_apply] at hpair hpair'
    obtain ⟨_, -, rfl⟩ := hpair
    obtain ⟨_, -, h⟩ := hpair'
    exact hne (congrArg Prod.fst h).symm

/-- What is pending of the files is what is filed in them, with records for integers. -/
structure Pends (slot : (String × String) × Fields) (pending : LocationEntry) : Prop where
  place : (pending.file, pending.key) = slot.1
  number : RecordId.NumberOf slot.2.type pending.id
  kind : pending.kind = slot.2.kind
  debug : pending.debug = slot.2.debug

theorem pends_of_checkFile {file : String} {entries : OrderedMap String Fields}
    {pending : List LocationEntry} (h : checkFile file entries = .ok pending) :
    List.Forall₂ Pends (entries.entries.map fun entry => ((file, entry.1), entry.2)) pending := by
  rw [List.forall₂_map_left_iff]
  refine (mapM_eq_ok.1 h).imp ?_
  rintro ⟨key, fields⟩ _ hentry
  obtain ⟨id, hid, hpending⟩ := bind_eq_ok.1 hentry
  obtain rfl := pure_eq_ok.1 hpending
  exact ⟨rfl, RecordId.check_eq_ok.1 hid, rfl, rfl⟩

theorem pends_of_checkFiles {files : OrderedMap String (OrderedMap String Fields)}
    {pending : List LocationEntry} (h : Document.checkFiles files = .ok pending) :
    List.Forall₂ Pends (flat files) pending := by
  obtain ⟨lists, hlists, hpending⟩ := bind_eq_ok.1 h
  obtain rfl := pure_eq_ok.1 hpending
  rw [← List.flatMap_id]
  refine List.rel_flatMap ((mapM_eq_ok.1 hlists).imp fun _ _ => pends_of_checkFile) ?_
  exact fun _ _ hfile => hfile

theorem tells_of_pends {graph : TypeGraph} {slots : List ((String × String) × Fields)}
    {pending : List LocationEntry} {ts : List TypeId} (hslots : List.Forall₂ Pends slots pending)
    (hts : List.Forall₂ (fun p t => graph.registered? p.id = some t) pending ts) :
    List.Forall₂ (fun slot located => slot.1 = located.1 ∧ Tells graph.Numbered slot.2 located.2) slots
      ((pending.zip ts).map filed) := by
  induction hslots generalizing ts with
  | nil => exact .nil
  | cons hslot _ ih =>
    obtain _ | ⟨ht, hts⟩ := hts
    exact .cons ⟨hslot.place.symm, ⟨_, hslot.number, ht⟩, hslot.kind, hslot.debug⟩ (ih hts)

/-- Locations are filed where their files have them. -/
theorem tells_of_checkFiles {graph : TypeGraph} {files : OrderedMap String (OrderedMap String Fields)}
    {pending : List LocationEntry} {locations : Locations} (hpending : Document.checkFiles files = .ok pending)
    (h : Of graph pending locations) (file key : String) :
    Option.Rel (Tells graph.Numbered) (at? files file key) (at? locations file key) := by
  obtain ⟨ts, hts, rfl⟩ := h
  have hslots := tells_of_pends (pends_of_checkFiles hpending) hts
  have hfiles : at? files file key = (OrderedMap.ofList (flat files)).get? (file, key) := by
    refine Option.ext fun fields => ?_
    rw [← mem_flat_iff, ← OrderedMap.mem_entries_iff, OrderedMap.entries_ofList (nodup_flat files)]
  rw [hfiles, at?_foldl_add]
  exact (OrderedMap.Related.ofList hslots).get? (file, key)

end Locations

/-! ### Environments -/

/-- The catalogs and locations are those of the document, with what stands in relation to the integers. -/
structure Environment.Lists (environment : Environment) (R : Int → TypeId → Prop) (c : Document.Canonical) :
    Prop where
  globals : Catalog.TableOf R c.globals environment.globals
  types : Catalog.TableOf R c.types environment.types
  ambient : Catalog.TableOf R c.ambient environment.ambient
  locations : ∀ file key, Option.Rel (Locations.Tells R) (Locations.at? c.locations file key)
    (Locations.at? environment.locations file key)

namespace Environment

variable {environment : Environment}

theorem Lists.imp {R R' : Int → TypeId → Prop} {c : Document.Canonical} (h : environment.Lists R c)
    (hR : ∀ n t, R n t → R' n t) : environment.Lists R' c where
  globals := h.globals.imp hR
  types := h.types.imp hR
  ambient := h.ambient.imp hR
  locations file key := rel_imp (h.locations file key) fun _ _ ht => ⟨hR _ _ ht.type, ht.kind, ht.debug⟩

/-- What is loaded lists what its document lists, with nodes for integers. -/
theorem exists_lists_of_ofJson {options : LoadOptions} {json : Json} (h : ofJson options json = .ok environment) :
    ∃ c, Document.canonical? json = some c ∧ environment.Lists environment.graph.Numbered c := by
  obtain ⟨document, hread, hload⟩ := ok_of_ofJson.1 h
  obtain ⟨c, hc, hsections⟩ := Document.exists_canonical_of_read hread
  -- A global node leaves the registry as it is, so the sections are told by either graph.
  obtain ⟨table, sections, properties, -, hnamed, -, rfl⟩ :=
    ok_of_ofDocument (Document.length_le_of_read hread) hload
  exact ⟨c, hc, Catalog.tableOf_of_namesOf hnamed.globals hsections.globals,
    Catalog.tableOf_of_namesOf hnamed.types hsections.types,
    Catalog.tableOf_of_namesOf hnamed.ambient hsections.ambient,
    Locations.tells_of_checkFiles hsections.locations hnamed.locations⟩

end Environment

end TypeEnv
