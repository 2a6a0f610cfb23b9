import TypeEnv.Proofs.Document.ClassLayouts
import TypeEnv.Proofs.Environment.EqualForms
import TypeEnv.Proofs.Environment.SignatureForest

/-! The two layouts of classes agree. A document whose classes are laid out anew is accepted whenever the
document is, and as the same environment: every record, type and signature keeps its handle. What can change
is the order in which a class is the first to mention other records, and with it the order of the
placeholders that are made for these. -/

namespace TypeEnv

open Reading

/-! ### Documents -/

/-- The same value, or a class laid out anew. -/
inductive Record.SameOrRelaid : Json → Json → Prop where
  | same (json : Json) : SameOrRelaid json json
  | relaid {members members' : List (String × Json)} (h : Relaid members members') :
    SameOrRelaid (.object members) (.object members')

/-- The same document but for the layouts of classes among its data. -/
structure Document.Relaid (members members' : List (String × Json)) (data data' : List Json) : Prop where
  lookup_data : members.lookup "data" = some (.array data)
  lookup_data' : members'.lookup "data" = some (.array data')
  others : ∀ name, name ≠ "data" → members'.lookup name = members.lookup name
  records : List.Forall₂ Record.SameOrRelaid data data'

namespace Document

variable {options : LoadOptions} {members members' : List (String × Json)} {data data' : List Json}

theorem follows_readAt_of_relaid {index : ℕ} {json json' : Json} (h : Record.SameOrRelaid json json') :
    Follows (Option.Rel fun record record' => record.form = record'.form) (readAt options index json)
      (readAt options index json') := by
  cases h with
  | same json =>
    exact (Follows.self _).imp fun _ _ h => h ▸ rel_imp (rel_eq_self _) fun _ _ => congrArg Record.form
  | relaid h =>
    intro found hfound
    obtain ⟨hindex, hat⟩ := readAt_eq_ok.1 hfound
    rcases readRecord_eq_ok.1 hat with ⟨hnull, -, -⟩ | ⟨-, record, rfl, hread⟩
    · cases hnull
    · obtain ⟨record', hread', hform⟩ := h.exists_read hread
      exact ⟨some record', readAt_eq_ok.2 ⟨hindex, readRecord_eq_ok.2 (.inr ⟨rfl, record', rfl, hread'⟩)⟩,
        .some hform⟩

theorem Relaid.exists_read (h : Relaid members members' data data') {document : Document}
    (hread : Document.read options (.object members) = .ok document) :
    ∃ document', Document.read options (.object members') = .ok document' ∧
      Environment.Respelled document document' := by
  obtain ⟨o, records, ho, hrecords, rfl⟩ := Document.read_eq_ok.1 hread
  obtain ⟨_, ⟨⟩, hdata, hglobals, htypes, hambient, hlocations⟩ := outline_eq_ok.1 ho
  obtain rfl : data = o.data := by simpa using h.lookup_data.symm.trans hdata
  have hsection : ∀ name, name ≠ "data" → section? members' name = section? members name := by
    intro name hname
    rw [section?, section?, h.others name hname]
  obtain ⟨records', hrecords', hsame⟩ :=
    follows_readRecords (fun _ _ _ => follows_readAt_of_relaid) h.records 0 records hrecords
  have ho' : outline (.object members') = .ok { o with data := data' } := by
    refine outline_eq_ok.2 ⟨members', rfl, h.lookup_data', ?_, ?_, ?_, ?_⟩
    · rwa [requiredCatalog, hsection _ (by decide)]
    · rwa [requiredCatalog, hsection _ (by decide)]
    · rwa [optionalSection, hsection _ (by decide)]
    · rwa [optionalSection, hsection _ (by decide)]
  exact ⟨_, Document.read_eq_ok.2 ⟨_, records', ho', hrecords', rfl⟩, hsame, rfl, rfl, rfl, rfl⟩

/-- The same value is read as the same record. -/
theorem getElem?_records_eq {records records' : List (Option (NestedRecord RecordId))}
    (h : readRecords options 0 data = .ok records) (h' : readRecords options 0 data' = .ok records') {k : ℕ}
    (hk : data'[k]? = data[k]?) : records'[k]? = records[k]? := by
  obtain ⟨hlen, hread⟩ := readRecords_eq_ok.1 h
  obtain ⟨hlen', hread'⟩ := readRecords_eq_ok.1 h'
  cases hjson : data[k]? with
  | none =>
    rw [hjson, List.getElem?_eq_none_iff, ← hlen'] at hk
    rw [List.getElem?_eq_none_iff, ← hlen] at hjson
    rw [List.getElem?_eq_none hk, List.getElem?_eq_none hjson]
  | some json =>
    obtain ⟨record, hrecord, hok⟩ := hread k json hjson
    obtain ⟨record', hrecord', hok'⟩ := hread' k json (hk.trans hjson)
    rw [hrecord, hrecord', Except.ok.inj (hok.symm.trans hok')]

end Document

/-! ### Environments -/

/-- The constructors of a class are the construct signatures of the class that it was made of. -/
theorem TypeForm.Related.exists_constructors {α β σ ρ : Type} {A : α → β → Prop} {S : σ → ρ → Prop}
    {x : TypeForm α σ} {y : TypeForm β ρ} (h : x.Related A S y) {signatures : List σ}
    (hx : x.constructors? = some signatures) :
    ∃ signatures', y.constructors? = some signatures' ∧ List.Forall₂ S signatures signatures' := by
  cases h with
  | classDeclaration h =>
    cases hx
    exact ⟨_, rfl, h.shape.constructSignatures⟩
  | _ => cases hx

theorem TypeGraph.constructors?_of_form {graph : TypeGraph} {t : TypeId} {form : TypeForm TypeId SignatureId}
    (h : graph.node? t = some (.form form)) : graph.constructors? t = form.constructors? := by
  rw [constructors?, h]
  cases form <;> rfl

namespace Environment

theorem SameButFronts.mono {environment environment' : Environment} {changed changed' : RecordId → Prop}
    (h : SameButFronts environment environment' changed) (himp : ∀ id, changed id → changed' id) :
    SameButFronts environment environment' changed' :=
  { h with node_eq := fun u hapart => h.node_eq u fun id t hid => hapart id t (himp id hid) }

/-- The constructors of a class are the construct signatures that it lists, and after these the signatures that
it lists apart. -/
def ListsConstructors (graph : TypeGraph) (data : List Json) : Prop :=
  ∀ (id : RecordId) (members : List (String × Json)), data[id.val.toNat]? = some (.object members) →
    members.lookup "kind" = some (.string Kind.classDeclaration.tag) → (members.map Prod.fst).Nodup →
      ∃ t constructors items trees, graph.registered? id = some t ∧ graph.constructors? t = some constructors ∧
        Record.constructorItems? members = some items ∧ List.Forall₂ Record.Writes items trees ∧
        graph.Rebuilds trees constructors

theorem listsConstructors_of_holds {environment : Environment} {options : LoadOptions} {document : Document}
    {data : List Json} (hholds : environment.Holds options document) (haddressable : environment.graph.Addressable)
    (hrecords : Document.readRecords options 0 data = .ok document.records) :
    ListsConstructors environment.graph data := by
  intro id members hjson hkind hnodup
  obtain ⟨record, hread⟩ := Document.exists_read hrecords hjson rfl
  have hk := (Document.getElem?_records hrecords).2 ⟨_, hjson, rfl, hread⟩
  obtain ⟨items, trees, hitems, htrees, hwrites⟩ := Record.exists_constructors_of_read hkind hnodup hread
  obtain ⟨t, form, ht, hnode, hsays, -⟩ := hholds.record id record hk
  obtain ⟨constructors, hconstructors, hstored⟩ := hsays.exists_constructors htrees
  refine ⟨t, constructors, items, trees, ht, ?_, hitems, hwrites, ?_⟩
  · rw [TypeGraph.constructors?_of_form hnode, hconstructors]
  · exact TypeGraph.rebuilds_of_becomes (descending_of_holds hholds haddressable) hstored

/-- A document is loaded with its classes laid out anew too, as the same environment but for the order of the
placeholders in front of these classes. -/
theorem sameButFronts_of_relaid (options : LoadOptions) (members members' : List (String × Json))
    (data data' : List Json) (environment : Environment)
    (h : ofJson options (.object members) = .ok environment) (haddressable : environment.graph.Addressable)
    (hrelaid : Document.Relaid members members' data data') :
    (∃ environment', ofJson options (.object members') = .ok environment' ∧
      SameButFronts environment environment' fun id => data'[id.val.toNat]? ≠ data[id.val.toNat]?) ∧
    ListsConstructors environment.graph data := by
  obtain ⟨document, hread, hload⟩ := ok_of_ofJson.1 h
  have hlen := Document.length_le_of_read hread
  have hrecords := Document.readRecords_of_read hread hrelaid.lookup_data
  refine ⟨?_, listsConstructors_of_holds (holds_of_ofDocument hlen hload haddressable) haddressable hrecords⟩
  obtain ⟨document', hread', hrespelled⟩ := hrelaid.exists_read hread
  obtain ⟨environment', hload', haddressable'⟩ := exists_ofDocument_respelled hrespelled hlen hload haddressable
  refine ⟨environment', ok_of_ofJson.2 ⟨document', hread', hload'⟩, ?_⟩
  refine (sameButFronts_of_respelled hrespelled hlen hload hload' haddressable haddressable').mono fun id => ?_
  exact mt (Document.getElem?_records_eq hrecords (Document.readRecords_of_read hread' hrelaid.lookup_data'))

/-- A class with its constructors in one list, and with no properties for its instances. -/
def gatheredClass : List (String × Json) :=
  [("kind", .string "Class"), ("declaredProperties", .object [("p", .number (.int 1))]),
    ("declaredConstructSignatures", .array [.object [("resolvedReturnType", .number (.int 1))],
      .object [("resolvedReturnType", .number (.int 2))]]),
    ("declaredStringIndexType", .number (.int 3))]

/-- The same class with its constructors in two lists, and its properties repeated. -/
def apartClass : List (String × Json) :=
  [("kind", .string "Class"), ("declaredProperties", .object [("p", .number (.int 1))]),
    ("declaredConstructSignatures", .array [.object [("resolvedReturnType", .number (.int 1))]]),
    ("signatures", .array [.object [("resolvedReturnType", .number (.int 2))]]),
    ("instanceProperties", .object [("p", .number (.int 1))]),
    ("declaredStringIndexType", .number (.int 3))]

def classData (members : List (String × Json)) : List Json :=
  .object members :: List.replicate 3 (.object [("kind", .string "Any")])

def classMembers (members : List (String × Json)) : List (String × Json) :=
  [("globals", .array []), ("types", .array []), ("data", .array (classData members))]

theorem relaid_apartClass : Record.Relaid gatheredClass apartClass where
  kind := rfl
  nodup := by decide
  nodup' := by decide
  others := by
    intro name hname
    simp only [List.mem_cons, List.not_mem_nil, or_false, not_or, ← beq_eq_false_iff_ne] at hname
    simp [gatheredClass, apartClass, List.lookup_cons, hname]
  constructors := rfl
  instanceProperties := rfl

theorem sameButFronts_apartClass : ∃ environment,
    ofJson {} (.object (classMembers gatheredClass)) = .ok environment ∧ environment.graph.Addressable ∧
    Document.Relaid (classMembers gatheredClass) (classMembers apartClass) (classData gatheredClass)
      (classData apartClass) ∧
    (∃ environment', ofJson {} (.object (classMembers apartClass)) = .ok environment' ∧
      SameButFronts environment environment' fun id =>
        (classData apartClass)[id.val.toNat]? ≠ (classData gatheredClass)[id.val.toNat]?) ∧
    ListsConstructors environment.graph (classData gatheredClass) := by
  obtain ⟨environment, h, haddressable⟩ :=
    Reading.exists_ok_of_any (x := ofJson {} (.object (classMembers gatheredClass)))
      (P := fun environment => environment.graph.Addressable) (by decide +kernel)
  have hrelaid : Document.Relaid (classMembers gatheredClass) (classMembers apartClass) (classData gatheredClass)
      (classData apartClass) := by
    refine ⟨rfl, rfl, fun name hname => ?_, .cons (.relaid relaid_apartClass) ?_⟩
    · simp [classMembers, List.lookup_cons, beq_eq_false_iff_ne.2 hname]
    · exact List.forall₂_same.2 fun json _ => .same json
  exact ⟨environment, h, haddressable, hrelaid,
    sameButFronts_of_relaid {} _ _ _ _ environment h haddressable hrelaid⟩

/-- The second constructor is taken in before the index type or after it. -/
example : ([gatheredClass, apartClass].map fun members =>
    (ofJson {} (.object (classMembers members))).toOption.map fun environment =>
      environment.graph.nodes.toList.map fun node => node.standsFor?.map (·.val)) =
    [some [some 1, some 2, some 3, none, none, none, none, none],
      some [some 1, some 3, some 2, none, none, none, none, none]] := by
  decide +kernel

end Environment

end TypeEnv
