import TypeEnv.Proofs.Document.CanonicalForm
import TypeEnv.Proofs.Document.Outline
import TypeEnv.Proofs.Environment.Outcome

/-! Loading depends on a document through its canonical form only. Whether a tuple leaves out its least
length or has it filled in, it is taken in as the same type. -/

namespace TypeEnv

open Reading

/-! ### Records -/

namespace Record

/-- The same record but for a least length that may be filled in. -/
inductive SameForm {τ : Type} : NestedRecord τ → NestedRecord τ → Prop where
  | refl (record : NestedRecord τ) : SameForm record record
  | tuple (elements : List τ) {minLength minLength' : Option UInt32}
    (h : minLength.getD elements.length.toUInt32 = minLength'.getD elements.length.toUInt32) :
    SameForm (.tuple elements minLength) (.tuple elements minLength')

theorem formOf_eq {record record' : NestedRecord RecordId} (h : SameForm record record') :
    Environment.formOf record = Environment.formOf record' := by
  cases h with
  | refl => rfl
  | tuple elements h =>
    simp only [Environment.formOf, Record.traverse, bind_assoc, pure_bind]
    refine mapM_bind_congr fun results hresults => ?_
    simp only [Record.form, hresults, h]

theorem SameForm.symm {τ : Type} {record record' : NestedRecord τ} (h : SameForm record record') :
    SameForm record' record := by
  cases h with
  | refl => exact .refl _
  | tuple elements h => exact .tuple elements h.symm

theorem SameForm.trans {τ : Type} {record record' record'' : NestedRecord τ} (h : SameForm record record')
    (h' : SameForm record' record'') : SameForm record record'' := by
  cases h with
  | refl => exact h'
  | tuple elements h =>
    cases h' with
    | refl => exact .tuple elements h
    | tuple _ h' => exact .tuple elements (h.trans h')

theorem complete?_eq_some {raw complete : NestedRecord Int} (h : raw.complete? = some complete) :
    HasLength raw ∧ SameForm raw complete := by
  cases raw with
  | tuple elements minLength =>
    cases minLength with
    | none =>
      rw [complete?] at h
      split at h
      · next hlen =>
        obtain rfl := Option.some.inj h
        exact ⟨hlen, .tuple elements rfl⟩
      · cases h
    | some minLength =>
      obtain rfl := Option.some.inj h
      exact ⟨trivial, .refl _⟩
  | _ =>
    obtain rfl := Option.some.inj h
    exact ⟨trivial, .refl _⟩

theorem exists_complete? {raw : NestedRecord Int} (h : HasLength raw) :
    ∃ complete, raw.complete? = some complete := by
  cases raw with
  | tuple elements minLength =>
    cases minLength with
    | none => exact ⟨_, if_pos h⟩
    | some minLength => exact ⟨_, rfl⟩
  | _ => exact ⟨_, rfl⟩

theorem kind?_eq_some {members : List (String × Json)} {kind : Kind} : kind? members = some kind ↔
    ∃ tag, members.lookup "kind" = some (.string tag) ∧ Kind.ofTag? tag = some kind := by
  rw [kind?]
  split
  · next tag h => simp [h]
  · next h =>
    refine ⟨by rintro ⟨⟩, ?_⟩
    rintro ⟨tag, htag, -⟩
    exact absurd htag (h tag)

theorem spelled?_eq_some {json : Json} {complete : NestedRecord Int} : spelled? json = some complete ↔
    ∃ raw, Spells json raw ∧ raw.complete? = some complete := by
  cases json with
  | object members =>
    simp only [spelled?, Option.bind_eq_bind, Option.bind_eq_some_iff, kind?_eq_some, toOption_eq_some]
    constructor
    · rintro ⟨kind, ⟨tag, htag, hkind⟩, raw, hraw, hcomplete⟩
      exact ⟨raw, ⟨members, tag, kind, rfl, htag, hkind, hraw⟩, hcomplete⟩
    · rintro ⟨raw, ⟨_, tag, kind, ⟨⟩, htag, hkind, hraw⟩, hcomplete⟩
      exact ⟨kind, ⟨tag, htag, hkind⟩, raw, hraw, hcomplete⟩
  | _ =>
    refine ⟨by rintro ⟨⟩, ?_⟩
    rintro ⟨raw, ⟨_, _, _, ⟨⟩, -⟩, -⟩

/-- The check of the references does not depend on the least length. -/
theorem exists_check_of_sameForm {place : String} {raw raw' : NestedRecord Int}
    {record : NestedRecord RecordId} (h : SameForm raw raw') (hlength : HasLength raw')
    (hcheck : check place raw = .ok record) :
    ∃ record', check place raw' = .ok record' ∧ SameForm record record' := by
  cases h with
  | refl => exact ⟨record, hcheck, .refl _⟩
  | @tuple elements minLength minLength' h =>
    obtain ⟨hrefs, -⟩ := check_eq_ok.1 hcheck
    simp only [checkReferences, Record.traverse, bind_eq_ok, pure_eq_ok] at hrefs
    obtain ⟨ids, hids, rfl⟩ := hrefs
    have hsize : ids.length = elements.length := (mapM_eq_ok.1 hids).length_eq.symm
    refine ⟨.tuple ids minLength', check_eq_ok.2 ⟨?_, hlength⟩, .tuple ids (by rw [hsize, h])⟩
    simp only [checkReferences, Record.traverse, bind_eq_ok, pure_eq_ok]
    exact ⟨ids, hids, rfl⟩

/-- Values that spell the same record are read as the same record. -/
theorem exists_read_of_spelled? {id : RecordId} {json json' : Json}
    (h : spelled? json = spelled? json') {record : NestedRecord RecordId} (hread : read id json = .ok record) :
    ∃ record', read id json' = .ok record' ∧ SameForm record record' := by
  obtain ⟨raw, hraw, hcheck⟩ := read_eq_ok.1 hread
  obtain ⟨complete, hcomplete⟩ := exists_complete? (check_eq_ok.1 hcheck).2
  obtain ⟨raw', hraw', hcomplete'⟩ := spelled?_eq_some.1 (h ▸ spelled?_eq_some.2 ⟨raw, hraw, hcomplete⟩)
  obtain ⟨hlength, hsame⟩ := complete?_eq_some hcomplete'
  obtain ⟨record', hcheck', hsame'⟩ :=
    exists_check_of_sameForm ((complete?_eq_some hcomplete).2.trans hsame.symm) hlength hcheck
  exact ⟨record', read_eq_ok.2 ⟨raw', hraw', hcheck'⟩, hsame'⟩

end Record

/-! ### Documents -/

namespace Document

variable {options : LoadOptions}

/-- Positions that hold no record or the same record. -/
def SameRecords (records records' : List (Option (NestedRecord RecordId))) : Prop :=
  List.Forall₂ (Option.Rel Record.SameForm) records records'

theorem isNull_of_spelledOrNull? {json : Json} : json.isNull = true ↔
    Record.spelledOrNull? json = some none := by
  rw [Record.spelledOrNull?]
  cases json.isNull <;> simp

theorem exists_readAt_of_spelled? {index : Nat} {json json' : Json}
    (h : Record.spelledOrNull? json = Record.spelledOrNull? json') {record : Option (NestedRecord RecordId)}
    (hread : readAt options index json = .ok record) :
    ∃ record', readAt options index json' = .ok record' ∧ Option.Rel Record.SameForm record record' := by
  obtain ⟨hindex, hread⟩ := readAt_eq_ok.1 hread
  simp only [readAt_eq_ok, readRecord_eq_ok]
  rcases readRecord_eq_ok.1 hread with ⟨hnull, hskip, rfl⟩ | ⟨hnull, record, rfl, hok⟩
  · have hnull' : json'.isNull = true := isNull_of_spelledOrNull?.2 (h ▸ isNull_of_spelledOrNull?.1 hnull)
    exact ⟨none, ⟨hindex, .inl ⟨hnull', hskip, rfl⟩⟩, .none⟩
  · have hnull' : json'.isNull = false := by
      rw [← Bool.not_eq_true, isNull_of_spelledOrNull?, ← h, ← isNull_of_spelledOrNull?, hnull]
      exact Bool.false_ne_true
    have hspelled : Record.spelled? json = Record.spelled? json' := by
      simpa [Record.spelledOrNull?, hnull, hnull', Option.map_inj_right] using h
    obtain ⟨record', hread', hsame⟩ := Record.exists_read_of_spelled? hspelled hok
    exact ⟨some record', ⟨hindex, .inr ⟨hnull', record', rfl, hread'⟩⟩, .some hsame⟩

theorem exists_spelled_of_readAt {index : Nat} {json : Json} {record : Option (NestedRecord RecordId)}
    (h : readAt options index json = .ok record) : ∃ spelled, Record.spelledOrNull? json = some spelled := by
  rcases readRecord_eq_ok.1 (readAt_eq_ok.1 h).2 with ⟨hnull, -, -⟩ | ⟨hnull, record, rfl, hok⟩
  · exact ⟨none, isNull_of_spelledOrNull?.1 hnull⟩
  · obtain ⟨raw, hraw, hcheck⟩ := Record.read_eq_ok.1 hok
    obtain ⟨complete, hcomplete⟩ := Record.exists_complete? (Record.check_eq_ok.1 hcheck).2
    have hspelled := Record.spelled?_eq_some.2 ⟨raw, hraw, hcomplete⟩
    exact ⟨some complete, by simp [Record.spelledOrNull?, hnull, hspelled]⟩

/-- Records that are read are spelled. -/
theorem exists_spelled_of_readRecords {data : List Json} {index : Nat}
    {records : List (Option (NestedRecord RecordId))} (h : readRecords options index data = .ok records) :
    ∃ spelled, data.mapM Record.spelledOrNull? = some spelled := by
  induction data generalizing index records with
  | nil => exact ⟨[], rfl⟩
  | cons json data ih =>
    simp only [readRecords, bind_eq_ok] at h
    obtain ⟨record, hrecord, records, hrecords, -⟩ := h
    obtain ⟨first, hfirst⟩ := exists_spelled_of_readAt hrecord
    obtain ⟨rest, hrest⟩ := ih hrecords
    exact ⟨first :: rest, mapM_eq_some.2 (.cons hfirst (mapM_eq_some.1 hrest))⟩

/-! ### Sections -/

section Sections

variable {members : List (String × Json)} {name : String} {entries : CatalogEntries}

theorem requiredCatalog_eq_ok : requiredCatalog members name = .ok entries ↔
    ∃ written, readField? members name (.catalog false) = some written ∧
      List.Forall₂ Catalog.Names written entries := by
  have hmissing (defect : LoadError) : (.error defect : Except LoadError CatalogEntries) = .ok entries ↔
      ∃ written, (none : Option (List (List String × Int))) = some written ∧
        List.Forall₂ Catalog.Names written entries := by
    simp
  rw [requiredCatalog, section?, readField?]
  cases members.lookup name with
  | none => exact hmissing _
  | some json =>
    cases json with
    | null => exact hmissing _
    | _ => exact Catalog.read_eq_ok

theorem optionalCatalog_eq_ok {place : String} :
    optionalSection members name (Catalog.read place) = .ok entries ↔
      ∃ written, readField? members name (.catalog true) = some written ∧
        List.Forall₂ Catalog.Names written entries := by
  have hblank : (.ok [] : Except LoadError CatalogEntries) = .ok entries ↔
      ∃ written, some ([] : List (List String × Int)) = some written ∧
        List.Forall₂ Catalog.Names written entries := by
    simp [eq_comm]
  rw [optionalSection, section?, readField?]
  cases members.lookup name with
  | none => exact hblank
  | some json =>
    cases json with
    | null => exact hblank
    | _ => exact Catalog.read_eq_ok

/-- The locations of all files, checked. -/
def checkFiles (files : OrderedMap String (OrderedMap String Locations.Fields)) :
    Except LoadError (List LocationEntry) := do
  return (← files.entries.mapM fun file => Locations.checkFile file.1 file.2).flatten

theorem locations_eq_ok {json : Json} {pending : List LocationEntry} :
    Locations.read json = .ok pending ↔
      ∃ files, (json.readMap (·.readMap Locations.fieldsLayout.read)).toOption = some files ∧
        checkFiles files = .ok pending := by
  rw [Locations.read]
  cases json.readMap (·.readMap Locations.fieldsLayout.read) with
  | error fault => simp
  | ok files => simp [checkFiles]

theorem optionalLocations_eq_ok {pending : List LocationEntry} :
    optionalSection members name Locations.read = .ok pending ↔
      ∃ files, readField? members name .locations = some files ∧ checkFiles files = .ok pending := by
  have hblank : (.ok [] : Except LoadError (List LocationEntry)) = .ok pending ↔
      ∃ files, some (∅ : OrderedMap String (OrderedMap String Locations.Fields)) = some files ∧
        checkFiles files = .ok pending := by
    simp only [Option.some.injEq, exists_eq_left']
    rfl
  rw [optionalSection, section?, readField?]
  cases members.lookup name with
  | none => exact hblank
  | some json =>
    cases json with
    | null => exact hblank
    | _ => exact locations_eq_ok

end Sections

/-- The same document but for the least lengths of tuples. -/
structure Same (document document' : Document) : Prop where
  globals : document'.globals = document.globals
  types : document'.types = document.types
  ambient : document'.ambient = document.ambient
  locations : document'.locations = document.locations
  records : SameRecords document.records document'.records

/-- The sections of the document are those of the canonical form, with records for integers. -/
structure HasSections (document : Document) (c : Canonical) : Prop where
  globals : List.Forall₂ Catalog.Names c.globals document.globals
  types : List.Forall₂ Catalog.Names c.types document.types
  ambient : List.Forall₂ Catalog.Names c.ambient document.ambient
  locations : checkFiles c.locations = .ok document.locations

/-- A document that is read has a canonical form. -/
theorem exists_canonical_of_read {json : Json} {document : Document}
    (h : Document.read options json = .ok document) :
    ∃ c, canonical? json = some c ∧ document.HasSections c := by
  obtain ⟨o, records, ho, hrecords, rfl⟩ := Document.read_eq_ok.1 h
  obtain ⟨members, rfl, hdata, hglobals, htypes, hambient, hlocations⟩ := outline_eq_ok.1 ho
  obtain ⟨globals, hglobals, hglobals'⟩ := requiredCatalog_eq_ok.1 hglobals
  obtain ⟨types, htypes, htypes'⟩ := requiredCatalog_eq_ok.1 htypes
  obtain ⟨ambient, hambient, hambient'⟩ := optionalCatalog_eq_ok.1 hambient
  obtain ⟨locations, hlocations, hlocations'⟩ := optionalLocations_eq_ok.1 hlocations
  obtain ⟨spelled, hspelled⟩ := exists_spelled_of_readRecords hrecords
  have hrecords : readField? members "data" .records = some spelled := by
    rw [readField?, hdata]
    exact hspelled
  exact ⟨⟨spelled, globals, types, ambient, locations⟩,
    canonical?_eq_some.2 ⟨members, rfl, hrecords, hglobals, htypes, hambient, hlocations⟩,
    hglobals', htypes', hambient', hlocations'⟩

/-- The data of a document with a canonical form. -/
theorem exists_data {members : List (String × Json)} {records : List (Option (NestedRecord Int))}
    (h : readField? members "data" .records = some records) :
    ∃ data, members.lookup "data" = some (.array data) ∧ data.mapM Record.spelledOrNull? = some records := by
  rw [readField?] at h
  cases hdata : members.lookup "data" with
  | none => rw [hdata] at h; cases h
  | some json =>
    rw [hdata] at h
    cases json with
    | array data => exact ⟨data, rfl, h⟩
    | _ => cases h

/-- Values of one canonical form are read as the same document. -/
theorem exists_read_of_canonical? {json json' : Json} (h : canonical? json = canonical? json')
    {document : Document} (hread : Document.read options json = .ok document) :
    ∃ document', Document.read options json' = .ok document' ∧ document.Same document' := by
  obtain ⟨c, hc, -⟩ := exists_canonical_of_read hread
  obtain ⟨o, records, ho, hrecords, rfl⟩ := Document.read_eq_ok.1 hread
  obtain ⟨members, rfl, hdata, hglobals, htypes, hambient, hlocations⟩ := outline_eq_ok.1 ho
  obtain ⟨_, ⟨⟩, hcdata, hcglobals, hctypes, hcambient, hclocations⟩ := canonical?_eq_some.1 hc
  obtain ⟨members', rfl, hcdata', hcglobals', hctypes', hcambient', hclocations'⟩ :=
    canonical?_eq_some.1 (h ▸ hc)
  obtain ⟨data, hdata₁, hspelled⟩ := exists_data hcdata
  obtain ⟨data', hdata', hspelled'⟩ := exists_data hcdata'
  obtain rfl : data = o.data := by simpa using hdata₁.symm.trans hdata
  have hall : List.Forall₂ (fun json json' => Record.spelledOrNull? json = Record.spelledOrNull? json')
      o.data data' :=
    forall₂_trans (fun _ _ _ hjson hjson' => hjson.trans hjson'.symm) (mapM_eq_some.1 hspelled)
      (mapM_eq_some.1 hspelled').flip
  obtain ⟨records', hrecords', hsame⟩ :=
    follows_readRecords (fun _ _ _ hjson _ => exists_readAt_of_spelled? hjson) hall 0 _ hrecords
  rw [requiredCatalog_eq_ok, hcglobals, ← hcglobals', ← requiredCatalog_eq_ok] at hglobals
  rw [requiredCatalog_eq_ok, hctypes, ← hctypes', ← requiredCatalog_eq_ok] at htypes
  obtain ⟨written, hwritten, hnames⟩ := optionalCatalog_eq_ok.1 hambient
  have hambient' : optionalSection members' "ambient" (Catalog.read "ambient") = .ok o.ambient :=
    optionalCatalog_eq_ok.2 ⟨written, (hcambient'.trans hcambient.symm).trans hwritten, hnames⟩
  rw [optionalLocations_eq_ok, hclocations, ← hclocations', ← optionalLocations_eq_ok] at hlocations
  have houtline : outline (.object members') =
      .ok ⟨o.globals, o.types, o.ambient, o.locations, data'⟩ :=
    outline_eq_ok.2 ⟨members', rfl, hdata', hglobals, htypes, hambient', hlocations⟩
  exact ⟨_, Document.read_eq_ok.2 ⟨_, records', houtline, hrecords', rfl⟩, rfl, rfl, rfl, rfl, hsame⟩

end Document

/-! ### Loading -/

namespace Environment

open Document

variable {options : LoadOptions}

theorem registerFrom_eq {records records' : List (Option (NestedRecord RecordId))}
    (h : SameRecords records records') (index : Nat) :
    registerFrom index records = registerFrom index records' := by
  induction h generalizing index with
  | nil => rfl
  | cons hrecord _ ih =>
    cases hrecord with
    | none => exact ih (index + 1)
    | some hsame => simp only [registerFrom, Record.formOf_eq hsame, ih]

theorem ofDocument_eq_of_same {document document' : Document} (h : document.Same document') :
    ofDocument options document = ofDocument options document' := by
  have hresolve : resolveDocument document = resolveDocument document' := by
    simp only [resolveDocument, registerFrom_eq h.records, h.globals, h.types, h.ambient, h.locations]
  rw [ofDocument, ofDocument, hresolve]

theorem ofJson_of_canonical? {json json' : Json} (h : canonical? json = canonical? json')
    {environment : Environment} (hload : ofJson options json = .ok environment) :
    ofJson options json' = .ok environment := by
  simp only [ofJson, bind_eq_ok] at hload ⊢
  obtain ⟨document, hread, hload⟩ := hload
  obtain ⟨document', hread', hsame⟩ := exists_read_of_canonical? h hread
  exact ⟨document', hread', ofDocument_eq_of_same hsame ▸ hload⟩

/-- Documents that edits turn into each other describe the same environments. -/
theorem ofJson_iff_of_edits (options : LoadOptions) {json json' : Json}
    (h : Relation.EqvGen Document.Edit json json') (environment : Environment) :
    ofJson options json = .ok environment ↔ ofJson options json' = .ok environment :=
  ⟨ofJson_of_canonical? (canonical?_eq_of_edits h), ofJson_of_canonical? (canonical?_eq_of_edits h).symm⟩

/-- A tuple with its least length, a `this` type with no constraint and a catalog with an empty branch. -/
def verboseJson : Json :=
  .object [
    ("data", .array [
      .object [("kind", .string "Tuple"), ("elementTypes", .array [.number (.int 1)]),
        ("minLength", .number (.int 1))],
      .object [("kind", .string "ThisType"), ("constraint", .number (.int (-1)))]]),
    ("globals", .object [("a", .number (.int 0)), ("b", .object [])]),
    ("types", .array [])]

/-- The same with all of that left out, the sections in another order and a key that is not known. -/
def terseJson : Json :=
  .object [
    ("types", .array []),
    ("globals", .object [("a", .number (.int 0))]),
    ("data", .array [
      .object [("kind", .string "Tuple"), ("elementTypes", .array [.number (.int 1)])],
      .object [("kind", .string "ThisType")]]),
    ("note", .bool true)]

theorem edits_verboseJson : Relation.EqvGen Document.Edit verboseJson terseJson := by
  refine .trans _ _ _ (.rel _ _ (.members (.value [] _ rfl (.record [] _
    (.minLength [("kind", _), ("elementTypes", _)] [] rfl (by decide)))))) ?_
  refine .trans _ _ _ (.rel _ _ (.members (.value [] _ rfl (.record [_] []
    (.members (.blank [("kind", _)] [] rfl (.negative (by decide) (by decide)) (by decide))))))) ?_
  refine .trans _ _ _ (.rel _ _ (.members (.value [_] _ rfl (.tree _ (.here [_] [] "b"))))) ?_
  refine .trans _ _ _ (.rel _ _ (.members (.reorder _ (List.reverse_perm _).symm (by decide)))) ?_
  exact .symm _ _ (.rel _ _ (.members (.unknown [_, _, _] [] _ rfl)))

theorem ofJson_iff_terseJson : Relation.EqvGen Document.Edit verboseJson terseJson ∧
    (ofJson {} verboseJson).toOption.isSome = true ∧
    ∀ environment, ofJson {} verboseJson = .ok environment ↔ ofJson {} terseJson = .ok environment :=
  ⟨edits_verboseJson, by decide +kernel, ofJson_iff_of_edits {} edits_verboseJson⟩

end Environment

end TypeEnv
