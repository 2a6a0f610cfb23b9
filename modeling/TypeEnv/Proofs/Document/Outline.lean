import TypeEnv.Proofs.Document.Catalogs
import TypeEnv.Proofs.Document.Records

/-! Reading a document: its sections, in the order of the fields, and only then its records. -/

namespace TypeEnv.Document

open Reading

variable {options : LoadOptions}

/-- A document whose sections are read and whose records are not. -/
structure Outline where
  globals : CatalogEntries
  types : CatalogEntries
  ambient : CatalogEntries
  locations : List LocationEntry
  data : List Json

/-- A section that may be left out. -/
def optionalSection {α : Type} (members : List (String × Json)) (name : String)
    (read : Json → Except LoadError (List α)) : Except LoadError (List α) :=
  match section? members name with
  | some json => read json
  | none => .ok []

def outline (json : Json) : Except LoadError Outline := do
  let .object members := json | throw (.malformed "$" .notAnObject)
  let data ← readData members
  return {
    data
    globals := ← requiredCatalog members "globals"
    types := ← requiredCatalog members "types"
    ambient := ← optionalSection members "ambient" (Catalog.read "ambient")
    locations := ← optionalSection members "locations" Locations.read }

def Outline.document (outline : Outline) (records : List (Option (NestedRecord RecordId))) :
    Document :=
  { globals := outline.globals, types := outline.types, ambient := outline.ambient
    locations := outline.locations, records }

theorem optionalSection_bind {α β : Type} (members : List (String × Json)) (name : String)
    (read : Json → Except LoadError (List α)) (next : List α → Except LoadError β) :
    optionalSection members name read >>= next =
      (section? members name).mapM read >>= fun entries => next (entries.getD []) := by
  rw [optionalSection]
  cases section? members name with
  | none => rfl
  | some json =>
    simp only [Option.mapM_some, bind_map_left]
    rfl

/-- The sections are read before any record. -/
theorem read_eq (json : Json) : Document.read options json = do
    let outline ← outline json
    return outline.document (← readRecords options 0 outline.data) := by
  cases json with
  | object members =>
    simp only [Document.read, outline, bind_assoc, optionalSection_bind, pure_bind]
    rfl
  | _ => rfl

theorem read_eq_ok {json : Json} {document : Document} :
    Document.read options json = .ok document ↔ ∃ o records, outline json = .ok o ∧
      readRecords options 0 o.data = .ok records ∧ document = o.document records := by
  rw [read_eq]
  simp only [bind_eq_ok, pure_eq_ok, eq_comm (b := document)]
  constructor
  · rintro ⟨o, ho, records, hrecords, h⟩
    exact ⟨o, records, ho, hrecords, h⟩
  · rintro ⟨o, records, ho, hrecords, h⟩
    exact ⟨o, ho, records, hrecords, h⟩

theorem length_le_of_read {json : Json} {document : Document}
    (h : Document.read options json = .ok document) : document.records.length ≤ 0x100000000 := by
  obtain ⟨o, records, -, hrecords, rfl⟩ := read_eq_ok.1 h
  have hlen := length_le_of_readRecords hrecords
  rwa [← (readRecords_eq_ok.1 hrecords).1] at hlen

theorem readData_eq_ok {members : List (String × Json)} {data : List Json} :
    readData members = .ok data ↔ members.lookup "data" = some (.array data) := by
  rw [readData]
  split
  · next h => simp [h]
  · next records h => simp [h]
  · next json h hjson =>
    simp only [hjson, reduceCtorEq, Option.some.injEq, false_iff]
    exact fun heq => h data heq

theorem outline_eq_ok {json : Json} {o : Outline} : outline json = .ok o ↔
    ∃ members, json = .object members ∧ members.lookup "data" = some (.array o.data) ∧
      requiredCatalog members "globals" = .ok o.globals ∧
      requiredCatalog members "types" = .ok o.types ∧
      optionalSection members "ambient" (Catalog.read "ambient") = .ok o.ambient ∧
      optionalSection members "locations" Locations.read = .ok o.locations := by
  cases json with
  | object members =>
    simp only [outline, bind_eq_ok, readData_eq_ok, pure_eq_ok, Json.object.injEq,
      exists_eq_left']
    constructor
    · rintro ⟨data, hdata, globals, hglobals, types, htypes, ambient, hambient, locations,
        hlocations, rfl⟩
      exact ⟨hdata, hglobals, htypes, hambient, hlocations⟩
    · rintro ⟨hdata, hglobals, htypes, hambient, hlocations⟩
      exact ⟨_, hdata, _, hglobals, _, htypes, _, hambient, _, hlocations, rfl⟩
  | _ => exact ⟨nofun, nofun⟩

theorem readRecords_of_read {members : List (String × Json)} {data : List Json} {document : Document}
    (hread : Document.read options (.object members) = .ok document)
    (hdata : members.lookup "data" = some (.array data)) : readRecords options 0 data = .ok document.records := by
  obtain ⟨o, records, ho, hrecords, rfl⟩ := read_eq_ok.1 hread
  obtain ⟨_, ⟨⟩, hdata', -⟩ := outline_eq_ok.1 ho
  obtain rfl : data = o.data := by simpa using hdata.symm.trans hdata'
  exact hrecords

/-! ### Sections as they are written -/

section Written

variable {members : List (String × Json)} {name : String}

theorem exists_requiredCatalog_iff {P : List String × RecordId → Prop} :
    (∃ entries, requiredCatalog members name = .ok entries ∧ ∀ entry ∈ entries, P entry) ↔
      ∃ written, (section? members name).bind Catalog.listing? = some written ∧
        ∀ w ∈ written, ∃ id, RecordId.NumberOf w.2 id ∧ P (w.1, id) := by
  rw [requiredCatalog]
  cases section? members name with
  | none => simp
  | some json => exact Catalog.exists_read_iff

theorem exists_optionalSection_iff {α β : Type} {read : Json → Except LoadError (List α)}
    {grammar : Json → Option (List β)} {P : α → Prop} {Q : β → Prop}
    (h : ∀ json, (∃ entries, read json = .ok entries ∧ ∀ entry ∈ entries, P entry) ↔
      ∃ written, grammar json = some written ∧ ∀ w ∈ written, Q w) :
    (∃ entries, optionalSection members name read = .ok entries ∧ ∀ entry ∈ entries, P entry) ↔
      ∃ written, (section? members name).elim (some []) grammar = some written ∧
        ∀ w ∈ written, Q w := by
  rw [optionalSection]
  cases section? members name with
  | none => simp
  | some json => exact h json

end Written

/-! ### Errors -/

open LoadError

theorem requiredCatalog_failsWith (members : List (String × Json)) (name : String) :
    FailsWith OfReading (requiredCatalog members name) := by
  rw [requiredCatalog]
  split
  · exact Catalog.read_failsWith _ _
  · exact .error trivial

theorem optionalSection_failsWith {α : Type} (members : List (String × Json)) (name : String)
    {read : Json → Except LoadError (List α)} (hread : ∀ json, FailsWith OfReading (read json)) :
    FailsWith OfReading (optionalSection members name read) := by
  rw [optionalSection]
  split
  · exact hread _
  · exact .ok _

theorem outline_failsWith (json : Json) : FailsWith OfReading (outline json) := by
  cases json with
  | object members =>
    have hdata : FailsWith OfReading (readData members) := by
      rw [readData]
      split
      · exact .error trivial
      · exact .ok _
      · exact .error trivial
    exact hdata.bind fun _ => (requiredCatalog_failsWith _ _).bind fun _ =>
      (requiredCatalog_failsWith _ _).bind fun _ =>
      (optionalSection_failsWith _ _ (Catalog.read_failsWith _)).bind fun _ =>
      (optionalSection_failsWith _ _ Locations.read_failsWith).bind fun _ => .ok _
  | _ => exact .error trivial

/-- Nothing is looked up while a document is read. -/
theorem read_failsWith (options : LoadOptions) (json : Json) :
    FailsWith OfReading (Document.read options json) := by
  rw [read_eq]
  refine (outline_failsWith json).bind fun o => .bind ?_ fun _ => .ok _
  rw [readRecords_eq]
  exact .mapM (fun _ => readAt_failsWith _ _ _) _

end TypeEnv.Document
