import TypeEnv.Proofs.Environment.Contents
import TypeEnv.Proofs.Environment.Listings
import TypeEnv.Proofs.Record.Kinds
import TypeEnv.Proofs.Report.DottedNames

/-! How what is loaded is described. Whatever is named or located is the node of a record, and is
described by the kind that this record is written with. -/

namespace TypeEnv

/-- The record of number `n` is written with the kind `tag`. -/
def Document.WritesKind (data : List Json) (n : Int) (tag : String) : Prop :=
  ∃ (k : Nat) (members : List (String × Json)), n = k ∧ data[k]? = some (.object members) ∧
    members.lookup "kind" = some (.string tag)

/-! ### Nodes -/

namespace TypeGraph

/-- The node of the record of number `n`, and described by the kind that this record is written with. -/
structure Describes (graph : TypeGraph) (data : List Json) (n : Int) (t : TypeId) : Prop where
  numbered : graph.Numbered n t
  kind : Document.WritesKind data n (graph.tagAt t)
  /-- The description is not that of what has no kind. -/
  known : graph.tagAt t ≠ "?"

theorem tagAt_of_form {graph : TypeGraph} {t : TypeId} {form : TypeForm TypeId SignatureId}
    (h : graph.node? t = some (.form form)) : graph.tagAt t = form.kind.tag := by
  rw [tagAt, h]
  rfl

end TypeGraph

/-- The node of a record is described by the kind of the record. -/
theorem Environment.Holds.describes {options : LoadOptions} {environment : Environment} {document : Document}
    {data : List Json} (h : environment.Holds options document)
    (hrecords : Document.readRecords options 0 data = .ok document.records) {n : Int} {t : TypeId}
    (ht : environment.graph.Numbered n t) : environment.graph.Describes data n t := by
  obtain ⟨id, hn, hid⟩ := id ht
  obtain ⟨record, hrecord⟩ := (h.registered_iff id).1 ⟨t, hid⟩
  obtain ⟨json, hjson, -, hread⟩ := (Document.getElem?_records hrecords).1 hrecord
  obtain ⟨t', form, ht', hform, hsays, -⟩ := h.record id record hrecord
  obtain rfl := Option.some.inj (hid.symm.trans ht')
  obtain ⟨members, rfl, hkind⟩ := Record.exists_kind_of_read hread
  have htag : environment.graph.tagAt t = record.form.kind.tag := by
    rw [TypeGraph.tagAt_of_form hform, hsays.kind_eq]
  exact ⟨ht, ⟨_, members, RecordId.numberOf_iff.1 hn, hjson, htag ▸ hkind⟩, htag ▸ Kind.tag_ne _⟩

/-! ### Lines -/

/-- The line of a path: its dotted name, the kind and the handle of the record that it is written with last. -/
def NameTable.LineOf (graph : TypeGraph) (data : List Json) (written : List (List String × Int))
    (path : List String) (line : String) : Prop :=
  ∃ n tag t, written.reverse.lookup path = some n ∧ Document.WritesKind data n tag ∧ graph.Numbered n t ∧
    line = dottedName path ++ "\t" ++ tag ++ s!"\t#{t.val}"

theorem NameTable.lines_of_tableOf {graph : TypeGraph} {data : List Json}
    {written : List (List String × Int)} {table : NameTable}
    (h : Catalog.TableOf (graph.Describes data) written table) :
    List.Forall₂ (LineOf graph data written) (written.map Prod.fst).eraseDups (table.lines graph) := by
  rw [← h.keys_eq, OrderedMap.keys, lines, List.forall₂_map_left_iff, List.forall₂_map_right_iff,
    List.forall₂_same]
  rintro ⟨path, t⟩ hentry
  obtain ⟨n, hlast, ht⟩ := h.exists_of_mem hentry
  exact ⟨n, _, t, hlast, ht.kind, ht.numbered, rfl⟩

/-! ### Environments -/

namespace Environment

structure Describes (environment : Environment) (data : List Json) (c : Document.Canonical) : Prop where
  /-- What is named or located is described by the kind that its record is written with. -/
  lists : environment.Lists (environment.graph.Describes data) c
  /-- There is a line for each path, in the order in which they first occur. -/
  globals : List.Forall₂ (NameTable.LineOf environment.graph data c.globals)
    (c.globals.map Prod.fst).eraseDups (environment.globals.lines environment.graph)
  types : List.Forall₂ (NameTable.LineOf environment.graph data c.types)
    (c.types.map Prod.fst).eraseDups (environment.types.lines environment.graph)
  ambient : List.Forall₂ (NameTable.LineOf environment.graph data c.ambient)
    (c.ambient.map Prod.fst).eraseDups (environment.ambient.lines environment.graph)

/-- Whatever is loaded is described by the kinds that its document is written with. -/
theorem describes_of_ofJson (options : LoadOptions) (json : Json) (environment : Environment)
    (h : ofJson options json = .ok environment) (haddressable : environment.graph.Addressable) :
    ∃ members data c, json = .object members ∧ members.lookup "data" = some (.array data) ∧
      Document.canonical? json = some c ∧ environment.Describes data c := by
  obtain ⟨c, hc, hnumbered⟩ := exists_lists_of_ofJson h
  obtain ⟨document, hread, hload⟩ := ok_of_ofJson.1 h
  have hholds := holds_of_ofDocument (Document.length_le_of_read hread) hload haddressable
  obtain ⟨o, records, ho, hrecords, rfl⟩ := Document.read_eq_ok.1 hread
  obtain ⟨members, rfl, hdata, -⟩ := Document.outline_eq_ok.1 ho
  have hlists := hnumbered.imp fun n t ht => hholds.describes hrecords ht
  exact ⟨members, o.data, c, rfl, hdata, hc, {
    lists := hlists
    globals := NameTable.lines_of_tableOf hlists.globals
    types := NameTable.lines_of_tableOf hlists.types
    ambient := NameTable.lines_of_tableOf hlists.ambient }⟩

/-- A path that is written for a union and then for a class, a name for each grammar of catalogs, a class
that refers to what comes after it, and a location of the union. -/
def kindsJson : Json :=
  .object [("globals", .object [("window", .number (.int 1))]),
    ("types", .array [Catalog.entryJson 2 ["N", "C"], Catalog.entryJson 0 ["N"],
      Catalog.entryJson 1 ["N", "C"]]),
    ("ambient", .object [("n", .object [("s", .number (.int 0))])]),
    ("locations", .object [("a.ts", .object [("7", .object [("kind", .string "Alias"),
      ("type", .number (.int 2))])])]),
    ("data", .array [.object [("kind", .string "StringLiteral"), ("text", .string "Class")],
      .object [("kind", .string "Class"), ("baseTypes", .array [.number (.int 2)])],
      .object [("kind", .string "Union"), ("elements", .array [.number (.int 0), .number (.int 1)])]])]

theorem describes_kindsJson : ∃ environment, ofJson {} kindsJson = .ok environment ∧
    environment.graph.Addressable ∧ ∃ members data c, kindsJson = .object members ∧
      members.lookup "data" = some (.array data) ∧ Document.canonical? kindsJson = some c ∧
      environment.Describes data c := by
  obtain ⟨environment, h, haddressable⟩ := Reading.exists_ok_of_any (x := ofJson {} kindsJson)
    (P := fun environment => environment.graph.Addressable) (by decide +kernel)
  exact ⟨environment, h, haddressable, describes_of_ofJson {} kindsJson environment h haddressable⟩

/-- The path that is written twice is listed first, and as the class. -/
example : ((ofJson {} kindsJson).toOption.map fun environment =>
    environment.types.lines environment.graph) = some ["N.C\tClass\t#2", "N\tStringLiteral\t#0"] := by
  decide +kernel

end Environment

end TypeEnv
