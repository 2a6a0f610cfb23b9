import TypeEnv.Proofs.Environment.Outcome

/-! Which JSON values describe an environment: those whose sections are well formed, whose records are
spelled as their kinds ask, and in which every integer that is to name a record is the position of
one. Nothing else is asked for, save that positions and lengths of tuples have 32 bits. -/

namespace TypeEnv

open Reading RecordId

/-! ### What is accepted -/

/-- A record that is not null stands at position `n` of `data`. -/
def Refers (data : List Json) (n : Int) : Prop :=
  ∃ (k : Nat) (json : Json), n = k ∧ data[k]? = some json ∧ json.isNull = false

/-- What stands among the records of `data` is a null that is skipped, or a record of some kind that
refers to records of `data` only. -/
def AcceptsRecord (options : LoadOptions) (data : List Json) (json : Json) : Prop :=
  (json.isNull = true ∧ options.nullRecords = .skip) ∨
    ∃ raw, Record.Spells json raw ∧ raw.HasLength ∧ ∀ n ∈ raw.mentions, Refers data n

/-- The sections of a document as they are written. -/
structure Written where
  data : List Json
  globals : List (List String × Int)
  types : List (List String × Int)
  ambient : List (List String × Int)
  locations : List Int

structure Accepts (options : LoadOptions) (members : List (String × Json)) (written : Written) :
    Prop where
  data : members.lookup "data" = some (.array written.data)
  globals : (Document.section? members "globals").bind Catalog.listing? = some written.globals
  types : (Document.section? members "types").bind Catalog.listing? = some written.types
  ambient :
    (Document.section? members "ambient").elim (some []) Catalog.listing? = some written.ambient
  locations :
    (Document.section? members "locations").elim (some []) Locations.numbers? = some written.locations
  /-- Every position is a number of 32 bits. -/
  length_le : written.data.length ≤ 0x100000000
  records : ∀ json ∈ written.data, AcceptsRecord options written.data json
  refers_globals : ∀ entry ∈ written.globals, Refers written.data entry.2
  refers_types : ∀ entry ∈ written.types, Refers written.data entry.2
  refers_ambient : ∀ entry ∈ written.ambient, Refers written.data entry.2
  refers_locations : ∀ n ∈ written.locations, Refers written.data n
  flat : options.requireFlatGlobals = true → ∀ entry ∈ written.globals, entry.1.length = 1

/-! ### Records -/

variable {options : LoadOptions} {data : List Json} {json : Json}

theorem refers_iff (hlen : data.length ≤ 0x100000000) {n : Int} :
    (∃ id, NumberOf n id ∧ Document.holdsRecord data id = true) ↔ Refers data n := by
  simp only [numberOf_iff, Document.holdsRecord_iff]
  constructor
  · rintro ⟨id, rfl, json, hjson, hnull⟩
    exact ⟨_, json, rfl, hjson, hnull⟩
  · rintro ⟨k, json, rfl, hjson, hnull⟩
    have hlt := (List.getElem?_eq_some_iff.1 hjson).1
    have hk : k.toUInt32.toNat = k := toNat_toUInt32 (by omega)
    exact ⟨⟨k.toUInt32⟩, by rw [hk], json, by rw [hk]; exact hjson, hnull⟩

namespace Document

theorem exists_readAt_iff {index : Nat} {P : RecordId → Prop} :
    (∃ record, readAt options index json = .ok record ∧
        ∀ r, record = some r → ∀ id ∈ r.mentions, P id) ↔
      index < 0x100000000 ∧ ((json.isNull = true ∧ options.nullRecords = .skip) ∨
        ∃ raw, Record.Spells json raw ∧ raw.HasLength ∧
          ∀ n ∈ raw.mentions, ∃ id, NumberOf n id ∧ P id) := by
  simp only [readAt_eq_ok, readRecord_eq_ok]
  constructor
  · rintro ⟨_, ⟨hindex, ⟨hnull, hskip, rfl⟩ | ⟨-, r, rfl, hr⟩⟩, hP⟩
    · exact ⟨hindex, .inl ⟨hnull, hskip⟩⟩
    · exact ⟨hindex, .inr (Record.exists_read_iff.1 ⟨r, hr, hP r rfl⟩)⟩
  · rintro ⟨hindex, ⟨hnull, hskip⟩ | hraw⟩
    · exact ⟨none, ⟨hindex, .inl ⟨hnull, hskip, rfl⟩⟩, nofun⟩
    · obtain ⟨r, hr, hP⟩ := Record.exists_read_iff.2 hraw
      refine ⟨some r, ⟨hindex, .inr ⟨isNull_of_read hr, r, rfl, hr⟩⟩, ?_⟩
      rintro _ ⟨⟩
      exact hP

end Document

namespace Environment

open Document

theorem forall_mem_mentionsOf {records : List (Option (NestedRecord RecordId))}
    {P : RecordId → Prop} : (∀ id ∈ mentionsOf records, P id) ↔
      ∀ record ∈ records, ∀ r, record = some r → ∀ id ∈ r.mentions, P id := by
  simp only [mentionsOf, List.forall_mem_flatMap, List.mem_filterMap, id]
  constructor
  · exact fun h record hrecord r hr => h r ⟨record, hrecord, hr⟩
  · rintro h r ⟨record, hrecord, hr⟩
    exact h record hrecord r hr

/-- Records are read, with what they mention there, when every position is accepted. -/
theorem exists_readRecords_iff : (∃ records, readRecords options 0 data = .ok records ∧
      ∀ id ∈ mentionsOf records, holdsRecord data id = true) ↔
    data.length ≤ 0x100000000 ∧ ∀ json ∈ data, AcceptsRecord options data json := by
  simp only [forall_mem_mentionsOf]
  constructor
  · rintro ⟨records, hrecords, hP⟩
    have hlen := length_le_of_readRecords hrecords
    refine ⟨hlen, fun json hjson => ?_⟩
    obtain ⟨k, hk⟩ := List.mem_iff_getElem?.1 hjson
    obtain ⟨record, hrecord, hread⟩ := (readRecords_eq_ok.1 hrecords).2 k json hk
    have haccepts := exists_readAt_iff.1 ⟨record, hread, hP record (List.mem_of_getElem? hrecord)⟩
    simp only [refers_iff hlen] at haccepts
    exact haccepts.2
  · rintro ⟨hlen, h⟩
    rw [readRecords_eq, exists_mapM_iff]
    rintro ⟨json, k⟩ hentry
    have hk : data[k]? = some json := List.mem_zipIdx_iff_getElem?.1 hentry
    have hlt := (List.getElem?_eq_some_iff.1 hk).1
    refine exists_readAt_iff.2 ⟨by omega, ?_⟩
    simp only [refers_iff hlen]
    exact h json (List.mem_of_getElem? hk)

/-! ### Sections -/

section Sections

variable (hlen : data.length ≤ 0x100000000) {members : List (String × Json)} {name : String}

include hlen

theorem exists_requiredCatalog_holds_iff (F : List String → Prop) :
    (∃ entries, requiredCatalog members name = .ok entries ∧
        ∀ entry ∈ entries, holdsRecord data entry.2 = true ∧ F entry.1) ↔
      ∃ written, (section? members name).bind Catalog.listing? = some written ∧
        ∀ w ∈ written, Refers data w.2 ∧ F w.1 := by
  rw [exists_requiredCatalog_iff]
  simp only [← and_assoc, exists_and_right, refers_iff hlen]

theorem exists_optionalCatalog_holds_iff :
    (∃ entries, optionalSection members name (Catalog.read name) = .ok entries ∧
        ∀ entry ∈ entries, holdsRecord data entry.2 = true) ↔
      ∃ written, (section? members name).elim (some []) Catalog.listing? = some written ∧
        ∀ w ∈ written, Refers data w.2 := by
  refine exists_optionalSection_iff fun json => ?_
  rw [Catalog.exists_read_iff]
  simp only [refers_iff hlen]

theorem exists_locations_holds_iff :
    (∃ entries, optionalSection members name Locations.read = .ok entries ∧
        ∀ entry ∈ entries, holdsRecord data entry.id = true) ↔
      ∃ numbers, (section? members name).elim (some []) Locations.numbers? = some numbers ∧
        ∀ n ∈ numbers, Refers data n := by
  refine exists_optionalSection_iff fun json => ?_
  have hread := Locations.exists_read_iff json fun id => holdsRecord data id = true
  simpa only [refers_iff hlen] using hread

end Sections

/-! ### Documents -/

/-- A load succeeds when its document can be refused for nothing. -/
theorem exists_ofJson_iff_loadError? (hfits : Fits options json) :
    (∃ environment, ofJson options json = .ok environment) ↔
      ∃ o, outline json = .ok o ∧ loadError? options o = none := by
  constructor
  · rintro ⟨environment, h⟩
    obtain ⟨document, hread, -⟩ := ok_of_ofJson.1 h
    obtain ⟨o, -, ho, -⟩ := Document.read_eq_ok.1 hread
    refine ⟨o, ho, ?_⟩
    rw [← error?_ofJson hfits ho]
    exact error?_eq_none.2 ⟨environment, h⟩
  · rintro ⟨o, ho, hnone⟩
    rw [← error?_ofJson hfits ho] at hnone
    exact error?_eq_none.1 hnone

theorem dangling?_eq_none {ids : List RecordId} :
    dangling? data ids = none ↔ ∀ id ∈ ids, holdsRecord data id = true := by
  simp [dangling?]

theorem qualifiedGlobal?_eq_none {document : Document} :
    qualifiedGlobal? options document = none ↔ ∀ entry ∈ document.globals,
      options.requireFlatGlobals = true → entry.1.length = 1 := by
  have hflat : ∀ path, flatName? path = none ↔ path.length ≠ 1 := by
    rintro (_ | ⟨name, _ | ⟨_, _⟩⟩) <;> simp [flatName?]
  simp only [qualifiedGlobal?, List.find?_eq_none, List.forall_mem_map, Bool.and_eq_true,
    Option.isNone_iff_eq_none, hflat, not_and, not_not]

theorem loadError?_eq_none {o : Outline} : loadError? options o = none ↔
    (∃ records, readRecords options 0 o.data = .ok records ∧
      ∀ id ∈ mentionsOf records, holdsRecord o.data id = true) ∧
    (∀ id ∈ sectionIds (o.document []), holdsRecord o.data id = true) ∧
    ∀ entry ∈ o.globals, options.requireFlatGlobals = true → entry.1.length = 1 := by
  simp only [loadError?, Option.orElse_eq_orElse, Option.orElse_eq_or, Option.or_eq_none_iff,
    Option.map_eq_none_iff, rejection?_eq, error?_eq_none, dangling?_eq_none, qualifiedGlobal?_eq_none]
  constructor
  · rintro ⟨⟨records, hrecords⟩, hmentions, hrest⟩
    rw [recordMentions_eq hrecords] at hmentions
    exact ⟨⟨records, hrecords, hmentions⟩, hrest⟩
  · rintro ⟨⟨records, hrecords, hmentions⟩, hrest⟩
    rw [← recordMentions_eq hrecords] at hmentions
    exact ⟨⟨records, hrecords⟩, hmentions, hrest⟩

/-- What the options ask of the path of a global name. -/
def Flat (options : LoadOptions) (path : List String) : Prop :=
  options.requireFlatGlobals = true → path.length = 1

theorem exists_accepts_of_outline {members : List (String × Json)} {o : Outline}
    (ho : outline (.object members) = .ok o) (hnone : loadError? options o = none) :
    ∃ written, Accepts options members written := by
  obtain ⟨hrecords, hsections, hflat⟩ := loadError?_eq_none.1 hnone
  obtain ⟨hlen, hrecords⟩ := exists_readRecords_iff.1 hrecords
  simp only [sectionIds, List.forall_mem_append, List.forall_mem_map] at hsections
  obtain ⟨hglobals, htypes, hambient, hlocations⟩ := hsections
  obtain ⟨_, ⟨⟩, hdata, hreadGlobals, hreadTypes, hreadAmbient, hreadLocations⟩ := outline_eq_ok.1 ho
  obtain ⟨globals, hglobals, hreferGlobals⟩ := (exists_requiredCatalog_holds_iff hlen (Flat options)).1
    ⟨_, hreadGlobals, fun entry hentry => ⟨hglobals entry hentry, hflat entry hentry⟩⟩
  obtain ⟨types, htypes, hreferTypes⟩ := (exists_requiredCatalog_holds_iff hlen fun _ => True).1
    ⟨_, hreadTypes, fun entry hentry => ⟨htypes entry hentry, trivial⟩⟩
  obtain ⟨ambient, hambient, hreferAmbient⟩ :=
    (exists_optionalCatalog_holds_iff hlen).1 ⟨_, hreadAmbient, hambient⟩
  obtain ⟨locations, hlocations, hreferLocations⟩ :=
    (exists_locations_holds_iff hlen).1 ⟨_, hreadLocations, hlocations⟩
  exact ⟨⟨o.data, globals, types, ambient, locations⟩, {
    data := hdata
    globals := hglobals
    types := htypes
    ambient := hambient
    locations := hlocations
    length_le := hlen
    records := hrecords
    refers_globals := fun entry hentry => (hreferGlobals entry hentry).1
    refers_types := fun entry hentry => (hreferTypes entry hentry).1
    refers_ambient := hreferAmbient
    refers_locations := hreferLocations
    flat := fun hrequired entry hentry => (hreferGlobals entry hentry).2 hrequired }⟩

theorem exists_outline_of_accepts {members : List (String × Json)} {written : Written}
    (h : Accepts options members written) :
    ∃ o, outline (.object members) = .ok o ∧ loadError? options o = none := by
  obtain ⟨globals, hglobals, hholdGlobals⟩ :=
    (exists_requiredCatalog_holds_iff h.length_le (Flat options)).2 ⟨_, h.globals,
      fun entry hentry => ⟨h.refers_globals entry hentry, fun hflat => h.flat hflat entry hentry⟩⟩
  obtain ⟨types, htypes, hholdTypes⟩ :=
    (exists_requiredCatalog_holds_iff h.length_le fun _ => True).2
      ⟨_, h.types, fun entry hentry => ⟨h.refers_types entry hentry, trivial⟩⟩
  obtain ⟨ambient, hambient, hholdAmbient⟩ :=
    (exists_optionalCatalog_holds_iff h.length_le).2 ⟨_, h.ambient, h.refers_ambient⟩
  obtain ⟨locations, hlocations, hholdLocations⟩ :=
    (exists_locations_holds_iff h.length_le).2 ⟨_, h.locations, h.refers_locations⟩
  refine ⟨⟨globals, types, ambient, locations, written.data⟩,
    outline_eq_ok.2 ⟨members, rfl, h.data, hglobals, htypes, hambient, hlocations⟩,
    loadError?_eq_none.2 ⟨exists_readRecords_iff.2 ⟨h.length_le, h.records⟩, ?_, ?_⟩⟩
  · simp only [sectionIds, List.forall_mem_append, List.forall_mem_map]
    exact ⟨fun entry hentry => (hholdGlobals entry hentry).1,
      fun entry hentry => (hholdTypes entry hentry).1, hholdAmbient, hholdLocations⟩
  · exact fun entry hentry => (hholdGlobals entry hentry).2

/-- A JSON value is loaded exactly when it is the object of an acceptable document. -/
theorem exists_ofJson_iff (options : LoadOptions) (json : Json) (hfits : Fits options json) :
    (∃ environment, ofJson options json = .ok environment) ↔
      ∃ members written, json = .object members ∧ Accepts options members written := by
  rw [exists_ofJson_iff_loadError? hfits]
  constructor
  · rintro ⟨o, ho, hnone⟩
    obtain ⟨members, rfl, -⟩ := outline_eq_ok.1 ho
    obtain ⟨written, h⟩ := exists_accepts_of_outline ho hnone
    exact ⟨members, written, rfl, h⟩
  · rintro ⟨members, written, rfl, h⟩
    exact exists_outline_of_accepts h

/-- Both forms of a catalog, a location, a null that is skipped and a negative number for none. -/
def acceptedJson : Json :=
  .object [("globals", .object [("a", .number (.int 0))]),
    ("types", .array [.object [("type", .number (.int 2)),
      ("qName", .array [.string "A", .string "B"])]]),
    ("locations", .object [("a.ts", .object [("1", .object [("kind", .string "Class"),
      ("type", .number (.int 2))])])]),
    ("data", .array [
      .object [("kind", .string "ThisType"), ("constraint", .number (.int (-1)))],
      .null,
      .object [("kind", .string "Index"), ("type", .number (.int 0))]])]

theorem accepts_acceptedJson : Fits { nullRecords := .skip } acceptedJson ∧
    ∃ members written, acceptedJson = .object members ∧
      Accepts { nullRecords := .skip } members written := by
  have hfits : Fits { nullRecords := .skip } acceptedJson := by decide +kernel
  have hload : (ofJson { nullRecords := .skip } acceptedJson).toOption.isSome = true := by
    decide +kernel
  refine ⟨hfits, (exists_ofJson_iff { nullRecords := .skip } acceptedJson hfits).1 ?_⟩
  cases h : ofJson { nullRecords := .skip } acceptedJson with
  | error error =>
    rw [h] at hload
    cases hload
  | ok environment => exact ⟨environment, rfl⟩

end Environment

end TypeEnv
