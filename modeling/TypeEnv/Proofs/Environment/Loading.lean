import TypeEnv.Proofs.Document.Outline
import TypeEnv.Proofs.Environment.Register
import TypeEnv.Proofs.Environment.Sections
import TypeEnv.Proofs.Graph.Search

/-! Loading a document. Once its records are taken in, the first number that is mentioned, in a record
or in a section, and registered nowhere is reported; if there is none, only a name of several
segments among the globals is left to object to. The search for placeholders finds none. -/

namespace TypeEnv.Environment

open Stateful Resolver

/-! ### The state that records leave behind -/

def collected (document : Document) : Resolver :=
  ((registerFrom 0 document.records).run.run {}).2

variable {document : Document} (hlen : document.records.length ≤ 0x100000000)

include hlen

theorem run_registerFrom_zero : (registerFrom 0 document.records).run.run {} =
    (.ok (), collected document) ∧ Registers 0 document.records {} (collected document) := by
  have hbound : 0 + document.records.length ≤ 0x100000000 := by omega
  obtain ⟨r', hrun, hregisters⟩ :=
    run_registerFrom collecting_new hbound fun k _ _ => TypeGraph.registered?_empty _
  rw [collected, hrun]
  exact ⟨rfl, hregisters⟩

theorem registers_collected : Registers 0 document.records {} (collected document) :=
  (run_registerFrom_zero hlen).2

theorem run_resolveDocument : (resolveDocument document).run.run {} =
    match (collected document).graph.terminals with
    | .error error => (.error error, collected document)
    | .ok table => (resolveSections document).run.run ((collected document).resolvedBy table) := by
  have hparts : resolveDocument document = (registerFrom 0 document.records >>= fun _ =>
      finish >>= fun _ => resolveSections document) := rfl
  have hphase : (collected document).phase ≠ .resolved := by
    simp [(registers_collected hlen).collecting.phase]
  rw [hparts, run_bind, (run_registerFrom_zero hlen).1]
  simp only [run_bind, run_finish, if_neg hphase]
  cases (collected document).graph.terminals <;> rfl

omit hlen

/-- The records that are registered are those that are not null. -/
theorem Registers.holdsRecord {options : LoadOptions} {data : List Json}
    {records : List (Option (NestedRecord RecordId))} {r : Resolver}
    (hregisters : Registers 0 records {} r)
    (hrecords : Document.readRecords options 0 data = .ok records) (id : RecordId) :
    (∃ t, r.graph.registered? id = some t) ↔ Document.holdsRecord data id = true := by
  rw [hregisters.registered, Document.holdsRecord_iff]
  simp only [Document.getElem?_records hrecords]
  constructor
  · rintro (⟨t, ht⟩ | ⟨k, record, ⟨json, hjson, hnull, -⟩, rfl⟩)
    · simp at ht
    · have hlt := (List.getElem?_eq_some_iff.1 hjson).1
      have hbound := Document.length_le_of_readRecords hrecords
      rw [Nat.zero_add, toNat_toUInt32 (by omega)]
      exact ⟨json, hjson, hnull⟩
  · rintro ⟨json, hjson, hnull⟩
    obtain ⟨record, hread⟩ := Document.exists_read hrecords hjson hnull
    exact .inr ⟨_, record, ⟨json, hjson, hnull, hread⟩, by rw [Nat.zero_add, RecordId.word_eq]⟩

/-! ### Putting an environment together -/

def globalNode (properties : OrderedMap String TypeId) : Node :=
  .form (.interface { declaredProperties := properties })

/-- The graph with a global node. -/
def withGlobal (graph : TypeGraph) (properties : OrderedMap String TypeId) : TypeGraph :=
  (graph.alloc (globalNode properties)).2

def environmentOf (graph : TypeGraph) (sections : Sections)
    (properties : OrderedMap String TypeId) : Environment where
  graph := withGlobal graph properties
  global := (graph.alloc (globalNode properties)).1
  globals := sections.globals
  types := sections.types
  ambient := sections.ambient
  locations := sections.locations

variable {options : LoadOptions} {graph : TypeGraph} {sections : Sections}
  {properties : OrderedMap String TypeId} {environment : Environment}

theorem standsIn_alloc_form {form : TypeForm TypeId SignatureId} {t : TypeId} :
    (graph.alloc (.form form)).2.StandsIn t → graph.StandsIn t := by
  rintro ⟨id, hid⟩
  refine ⟨id, ?_⟩
  simp only [TypeGraph.node?, TypeGraph.alloc, Array.getElem?_push] at hid ⊢
  split at hid
  · simp at hid
  · exact hid

/-- Names of several segments are objected to or left out. -/
theorem globalProperties_eq_ok {globals : NameTable} :
    globalProperties options globals = .ok properties ↔
      (options.requireFlatGlobals = true → ∀ path ∈ globals.keys, (flatName? path).isSome) ∧
        properties = OrderedMap.ofList (globals.entries.filterMap fun entry =>
          (flatName? entry.1).map (·, entry.2)) := by
  rw [globalProperties]
  split
  · next path hfind =>
    have hpath := List.find?_some hfind
    have hmem := List.mem_of_find?_eq_some hfind
    simp only [Bool.and_eq_true, Option.isNone_iff_eq_none] at hpath
    refine ⟨nofun, fun ⟨hflat, _⟩ => ?_⟩
    have hsome := hflat hpath.1 path hmem
    rw [hpath.2] at hsome
    cases hsome
  · next hfind =>
    have hflat : options.requireFlatGlobals = true → ∀ path ∈ globals.keys, (flatName? path).isSome := by
      intro hrequire path hpath
      have hnot := List.find?_eq_none.1 hfind path hpath
      simpa [hrequire, Option.isSome_iff_ne_none] using hnot
    rw [and_iff_right hflat, Except.ok.injEq, eq_comm]

theorem mem_globalProperties {globals : NameTable} (h : globalProperties options globals = .ok properties)
    {t : TypeId} (ht : t ∈ properties.values) : t ∈ globals.values := by
  obtain ⟨-, rfl⟩ := globalProperties_eq_ok.1 h
  obtain ⟨entry, hentry, rfl⟩ := List.mem_map.1 (OrderedMap.mem_values_ofList ht)
  obtain ⟨named, hnamed, hflat⟩ := List.mem_filterMap.1 hentry
  obtain ⟨name, -, rfl⟩ := Option.map_eq_some_iff.1 hflat
  exact List.mem_map_of_mem hnamed

theorem size_withGlobal : (withGlobal graph properties).size = graph.size + 1 := by
  simp [withGlobal, TypeGraph.alloc, TypeGraph.size]

theorem standsIn_withGlobal {t : TypeId} : (withGlobal graph properties).StandsIn t →
    graph.StandsIn t :=
  standsIn_alloc_form

theorem typeRefs_globalNode : (globalNode properties).typeRefs = properties.values := by
  simp [globalNode, Node.typeRefs, TypeForm.typeRefs, TypeForm.references, Shape.references,
    getLeft?_comp_inl]

/-- With registered nodes for global properties, a settled graph stays settled. -/
theorem settled_withGlobal (hgraph : graph.Settled)
    (hproperties : ∀ t ∈ properties.values, ¬ graph.StandsIn t) :
    (withGlobal graph properties).Settled where
  nodes node hnode t ht := by
    refine mt standsIn_withGlobal ?_
    rcases Array.mem_push.1 hnode with hnode | rfl
    · exact hgraph.nodes node hnode t ht
    · rw [typeRefs_globalNode] at ht
      exact hproperties t ht
  signatures signature hsignature t ht :=
    mt standsIn_withGlobal (hgraph.signatures signature hsignature t ht)
  registry id t ht := mt standsIn_withGlobal (hgraph.registry id t ht)

theorem ok_of_assemble (h : assemble options graph sections = .ok environment) :
    ∃ properties, globalProperties options sections.globals = .ok properties ∧
      environment = environmentOf graph sections properties := by
  rw [assemble] at h
  cases hproperties : globalProperties options sections.globals with
  | error error => simp [hproperties] at h
  | ok properties =>
    refine ⟨properties, rfl, ?_⟩
    simp only [hproperties, Reading.ok_bind] at h
    split at h
    · cases h
    · exact (Except.ok.inj h).symm

/-- Where all that is named or located is registered, no placeholder is found. -/
theorem placeholderFrom?_environmentOf (hgraph : graph.Settled) (hsize : graph.size < 0x100000000)
    (hsections : SectionsOf graph document sections)
    (hproperties : globalProperties options sections.globals = .ok properties) :
    (withGlobal graph properties).placeholderFrom?
      (environmentOf graph sections properties).roots = none := by
  have hregistered : ∀ t, (∃ id, graph.registered? id = some t) →
      ¬ (withGlobal graph properties).StandsIn t := by
    rintro t ⟨id, hid⟩
    exact mt standsIn_withGlobal (hgraph.registry id t hid)
  have hsettled : (withGlobal graph properties).Settled := by
    refine settled_withGlobal hgraph fun t ht => ?_
    obtain ⟨id, hid⟩ := hsections.globals.registered (mem_globalProperties hproperties ht)
    exact hgraph.registry id t hid
  have hglobal : ¬ (withGlobal graph properties).StandsIn
      (environmentOf graph sections properties).global := by
    have hlast : (withGlobal graph properties).size ≤ 0x100000000 := by
      rw [size_withGlobal]
      omega
    have hnode := (nodeAt_alloc graph (globalNode properties)).node? hlast
    rintro ⟨id, hid⟩
    cases hnode.symm.trans hid
  refine TypeGraph.placeholderFrom?_of_settled hsettled fun t ht => ?_
  simp only [roots, List.mem_append, List.mem_singleton, or_assoc] at ht
  rcases ht with ht | ht | ht | ht | rfl
  · exact hregistered t (hsections.globals.registered ht)
  · exact hregistered t (hsections.types.registered ht)
  · exact hregistered t (hsections.ambient.registered ht)
  · exact hregistered t (hsections.locations.registered ht)
  · exact hglobal

/-- Only the names of the globals are objected to. -/
theorem assemble_of_settled (options : LoadOptions) (hgraph : graph.Settled)
    (hsize : graph.size < 0x100000000) (hsections : SectionsOf graph document sections) :
    assemble options graph sections = (globalProperties options sections.globals).map
      (environmentOf graph sections) := by
  rw [assemble]
  cases hproperties : globalProperties options sections.globals with
  | error error => rfl
  | ok properties =>
    have hnone := placeholderFrom?_environmentOf hgraph hsize hsections hproperties
    simp only [Reading.ok_bind]
    split
    · next placeholder hfound => cases hnone.symm.trans hfound
    · rfl

/-! ### Loading -/

theorem ofDocument_eq (hlen : document.records.length ≤ 0x100000000) :
    ofDocument options document =
      match (collected document).graph.terminals with
      | .error error => .error (.resolution error)
      | .ok table =>
        let resolved := (collected document).resolvedBy table
        match ((resolveSections document).run.run resolved).1 with
        | .error error => .error (.resolution error)
        | .ok sections => assemble options resolved.graph sections := by
  rw [ofDocument, run_resolveDocument hlen]
  cases (collected document).graph.terminals with
  | error error => rfl
  | ok table =>
    have hsections := looksUp_sections (r := (collected document).resolvedBy table) rfl document
    unfold LooksUp at hsections
    dsimp only
    split at hsections
    · rw [hsections]
      rfl
    · obtain ⟨sections, hrun, -⟩ := hsections
      rw [hrun]
      rfl

/-- What a load that succeeds has gone through. -/
theorem ok_of_ofDocument (hlen : document.records.length ≤ 0x100000000)
    (h : ofDocument options document = .ok environment) : ∃ table sections properties,
      (collected document).graph.terminals = .ok table ∧
      SectionsOf ((collected document).resolvedBy table).graph document sections ∧
      globalProperties options sections.globals = .ok properties ∧
      environment = environmentOf ((collected document).resolvedBy table).graph sections properties := by
  rw [ofDocument_eq hlen] at h
  cases hterminals : (collected document).graph.terminals with
  | error error => simp [hterminals] at h
  | ok table =>
    have hsections := looksUp_sections (r := (collected document).resolvedBy table) rfl document
    unfold LooksUp at hsections
    split at hsections
    · simp [hterminals, hsections] at h
    · obtain ⟨sections, hrun, hsections⟩ := hsections
      simp only [hterminals, hrun] at h
      obtain ⟨properties, hproperties, rfl⟩ := ok_of_assemble h
      exact ⟨table, sections, properties, rfl, hsections, hproperties, rfl⟩

theorem ok_of_ofJson {options : LoadOptions} {json : Json} {environment : Environment} :
    ofJson options json = .ok environment ↔ ∃ document,
      Document.read options json = .ok document ∧ ofDocument options document = .ok environment :=
  Reading.bind_eq_ok

/-- The first global name of several segments, if such names are not allowed. -/
def qualifiedGlobal? (options : LoadOptions) (document : Document) : Option (List String) :=
  (document.globals.map Prod.fst).find? fun path =>
    options.requireFlatGlobals && (flatName? path).isNone

theorem error?_assemble (options : LoadOptions) (hgraph : graph.Settled)
    (hsize : graph.size < 0x100000000) (hsections : SectionsOf graph document sections) :
    Reading.error? (assemble options graph sections) =
      (qualifiedGlobal? options document).map .qualifiedGlobal := by
  have hflat : sections.globals.keys.find? (fun path =>
      options.requireFlatGlobals && (flatName? path).isNone) = qualifiedGlobal? options document :=
    hsections.globals.find?_keys _
  rw [assemble_of_settled options hgraph hsize hsections, globalProperties, hflat]
  cases qualifiedGlobal? options document <;> rfl

/-- Why a load fails, if it does, as long as every node has a handle of its own. -/
theorem error?_ofDocument (options : LoadOptions) (hlen : document.records.length ≤ 0x100000000)
    (hsize : (collected document).graph.size < 0x100000000) :
    Reading.error? (ofDocument options document) =
      (((collected document).graph.missing? (mentionsOf document.records)).or
        ((collected document).graph.missing? (sectionIds document))).elim
          ((qualifiedGlobal? options document).map .qualifiedGlobal)
          fun id => some (.resolution (.unresolvedId id)) := by
  have hregisters := registers_collected hlen
  have hterminals := hregisters.collecting.terminals_eq (Nat.le_of_lt hsize)
  have hmentioned : (collected document).graph.missing? (collected document).graph.mentioned =
      (collected document).graph.missing? (mentionsOf document.records) :=
    hregisters.mentioned _
  rw [hmentioned] at hterminals
  rw [ofDocument_eq hlen]
  cases hmissing : (collected document).graph.missing? (mentionsOf document.records) with
  | some id =>
    rw [hmissing] at hterminals
    rw [hterminals]
    rfl
  | none =>
    rw [hmissing] at hterminals
    obtain ⟨table, hterminals⟩ := hterminals
    have hsections := looksUp_sections (r := (collected document).resolvedBy table) rfl document
    unfold LooksUp at hsections
    rw [missing?_resolvedBy] at hsections
    simp only [hterminals, Option.none_or]
    cases hids : (collected document).graph.missing? (sectionIds document) with
    | some id =>
      rw [hids] at hsections
      simp only [hsections]
      rfl
    | none =>
      rw [hids] at hsections
      obtain ⟨sections, hrun, hsections⟩ := hsections
      simp only [hrun]
      exact error?_assemble options (TypeGraph.settled_mapTypes hterminals)
        (by rwa [size_resolvedBy]) hsections

end TypeEnv.Environment
