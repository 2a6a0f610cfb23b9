import TypeEnv.Proofs.Environment.Loading

/-! Relaxed options. An option says where a load fails, in the place of a null or at the names of the
globals, and nothing about what is loaded: with less required, whatever loads gives the same
environment, handle by handle. -/

namespace TypeEnv

open Reading

/-- `relaxed` differs from `options` at most in that nulls are skipped and names of several segments
are let pass. -/
structure LoadOptions.RelaxesTo (options relaxed : LoadOptions) : Prop where
  flat : relaxed.requireFlatGlobals = true → options.requireFlatGlobals = true
  nulls : options.nullRecords = .skip → relaxed.nullRecords = .skip

variable {options relaxed : LoadOptions} (h : options.RelaxesTo relaxed)

include h

/-! ### Records -/

namespace Document

theorem readRecord_relaxed {id : RecordId} {json : Json} {record : Option (NestedRecord RecordId)}
    (hread : readRecord options id json = .ok record) :
    readRecord relaxed id json = .ok record := by
  rw [readRecord_eq_ok] at hread ⊢
  rcases hread with ⟨hnull, hskip, hnone⟩ | hrecord
  · exact .inl ⟨hnull, h.nulls hskip, hnone⟩
  · exact .inr hrecord

theorem readAt_relaxed {index : Nat} {json : Json} {record : Option (NestedRecord RecordId)}
    (hread : readAt options index json = .ok record) : readAt relaxed index json = .ok record := by
  rw [readAt_eq_ok] at hread ⊢
  exact hread.imp_right (readRecord_relaxed h)

theorem readRecords_relaxed {index : Nat} {data : List Json}
    {records : List (Option (NestedRecord RecordId))}
    (hread : readRecords options index data = .ok records) :
    readRecords relaxed index data = .ok records := by
  induction data generalizing index records with
  | nil => exact hread
  | cons json data ih =>
    rw [readRecords, bind_eq_ok] at hread ⊢
    obtain ⟨record, hrecord, hrest⟩ := hread
    refine ⟨record, readAt_relaxed h hrecord, ?_⟩
    rw [bind_eq_ok] at hrest ⊢
    obtain ⟨others, hothers, heq⟩ := hrest
    exact ⟨others, ih hothers, heq⟩

theorem read_relaxed {json : Json} {document : Document}
    (hread : Document.read options json = .ok document) :
    Document.read relaxed json = .ok document := by
  rw [read_eq_ok] at hread ⊢
  obtain ⟨o, records, ho, hrecords, rfl⟩ := hread
  exact ⟨o, records, ho, readRecords_relaxed h hrecords, rfl⟩

end Document

/-! ### Environments -/

namespace Environment

theorem globalProperties_relaxed {globals : NameTable} {properties : OrderedMap String TypeId}
    (hproperties : globalProperties options globals = .ok properties) :
    globalProperties relaxed globals = .ok properties := by
  rw [globalProperties_eq_ok] at hproperties ⊢
  obtain ⟨hflat, heq⟩ := hproperties
  exact ⟨fun hrequire => hflat (h.flat hrequire), heq⟩

theorem assemble_relaxed {graph : TypeGraph} {sections : Sections} {environment : Environment}
    (hassemble : assemble options graph sections = .ok environment) :
    assemble relaxed graph sections = .ok environment := by
  rw [assemble, bind_eq_ok] at hassemble ⊢
  obtain ⟨properties, hproperties, hrest⟩ := hassemble
  exact ⟨properties, globalProperties_relaxed h hproperties, hrest⟩

theorem ofDocument_relaxed {document : Document} {environment : Environment}
    (hload : ofDocument options document = .ok environment) :
    ofDocument relaxed document = .ok environment := by
  rcases hrun : (resolveDocument document).run.run {} with ⟨error | sections, resolver⟩
  · rw [ofDocument, hrun] at hload
    cases hload
  · rw [ofDocument, hrun] at hload ⊢
    cases hgraph : resolver.toGraph with
    | error error =>
      simp only [hgraph] at hload
      cases hload
    | ok graph =>
      simp only [hgraph] at hload ⊢
      exact assemble_relaxed h hload

/-- What loads, loads with relaxed options too, and nothing about it is different. -/
theorem ofJson_relaxed {json : Json} {environment : Environment}
    (hload : ofJson options json = .ok environment) : ofJson relaxed json = .ok environment := by
  rw [ok_of_ofJson] at hload ⊢
  obtain ⟨document, hread, hdocument⟩ := hload
  exact ⟨document, Document.read_relaxed h hread, ofDocument_relaxed h hdocument⟩

theorem ofText_relaxed {text : String} {environment : Environment}
    (hload : ofText options text = .ok environment) : ofText relaxed text = .ok environment := by
  rw [ofText] at hload ⊢
  cases hjson : Json.parse? text with
  | none =>
    rw [hjson] at hload
    cases hload
  | some json =>
    rw [hjson] at hload
    exact ofJson_relaxed h hload

end Environment

end TypeEnv
