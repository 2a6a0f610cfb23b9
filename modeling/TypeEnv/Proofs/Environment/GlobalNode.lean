import TypeEnv.Proofs.Environment.Contents
import TypeEnv.Proofs.Environment.Listings

/-! The global node of a loaded environment. It is made last, and since all that refers to nodes refers to
nodes of records, nothing refers to it. Its properties are the global names of one segment. -/

namespace TypeEnv.Environment

open Resolver

/-! ### Properties -/

section Properties

variable {options : LoadOptions} {globals : NameTable} {properties : OrderedMap String TypeId}

theorem eq_of_flatName? {path : List String} {name : String} (h : flatName? path = some name) :
    path = [name] := by
  match path with
  | [] | _ :: _ :: _ => cases h
  | [_] =>
    obtain rfl := Option.some.inj h
    rfl

/-- A property, as an entry of a path of one segment. -/
def flatEntry (entry : String × TypeId) : List String × TypeId := ([entry.1], entry.2)

/-- The entries that are kept, with their names as paths again. -/
theorem map_flatEntry_filterMap (entries : List (List String × TypeId)) :
    (entries.filterMap fun entry => (flatName? entry.1).map (·, entry.2)).map flatEntry =
      entries.filter (·.1.length = 1) := by
  induction entries with
  | nil => rfl
  | cons entry entries ih =>
    obtain ⟨path, t⟩ := entry
    match path with
    | [] => simpa [flatName?] using ih
    | [name] => simpa [flatName?, flatEntry] using ih
    | _ :: _ :: _ => simpa [flatName?] using ih

/-- The properties are the global names of one segment, in their order. -/
theorem entries_globalProperties (h : globalProperties options globals = .ok properties) :
    properties.entries.map flatEntry = globals.entries.filter (·.1.length = 1) := by
  obtain ⟨-, rfl⟩ := globalProperties_eq_ok.1 h
  have hentries := map_flatEntry_filterMap globals.entries
  have hnodup : ((globals.entries.filterMap fun entry =>
      (flatName? entry.1).map (·, entry.2)).map Prod.fst).Nodup := by
    refine List.Nodup.of_map (fun name => [name]) ?_
    have hkeys : ((globals.entries.filter (·.1.length = 1)).map Prod.fst).Nodup :=
      globals.nodup_keys.sublist (List.filter_sublist.map Prod.fst)
    rw [← hentries, List.map_map] at hkeys
    rwa [List.map_map]
  rw [OrderedMap.entries_ofList hnodup, hentries]

theorem get?_globalProperties (h : globalProperties options globals = .ok properties) (name : String) :
    properties.get? name = globals.get? [name] := by
  refine Option.ext fun t => ?_
  have hmem : (name, t) ∈ properties.entries ↔ flatEntry (name, t) ∈ properties.entries.map flatEntry := by
    refine (List.mem_map_of_injective ?_).symm
    rintro ⟨a, b⟩ ⟨a', b'⟩ heq
    simpa [flatEntry] using heq
  rw [← OrderedMap.mem_entries_iff, ← OrderedMap.mem_entries_iff, hmem, entries_globalProperties h,
    List.mem_filter]
  simp [flatEntry]

/-- With flat globals required, no name is left out. -/
theorem filter_length_of_requireFlat (h : globalProperties options globals = .ok properties)
    (hrequire : options.requireFlatGlobals = true) :
    globals.entries.filter (·.1.length = 1) = globals.entries := by
  obtain ⟨hflat, -⟩ := globalProperties_eq_ok.1 h
  refine List.filter_eq_self.2 fun entry hentry => ?_
  obtain ⟨name, hname⟩ := Option.isSome_iff_exists.1 (hflat hrequire _ (List.mem_map_of_mem hentry))
  rw [eq_of_flatName? hname]
  rfl

end Properties

/-! ### References -/

section References

variable {options : LoadOptions} {document : Document} {environment : Environment}
  (hlen : document.records.length ≤ 0x100000000) (h : ofDocument options document = .ok environment)
  (haddressable : environment.graph.Addressable) {t : TypeId}

include hlen h haddressable

/-- The global node is that of no record. -/
theorem registered?_ne_global (id : RecordId) : environment.graph.registered? id ≠ some environment.global := by
  intro hid
  have hroles := (holds_of_ofDocument hlen h haddressable).roles
  cases hroles.label_unique (.record id) .global environment.global hid rfl

theorem size_eq_global_succ : environment.graph.size = environment.global.val.toNat + 1 := by
  obtain ⟨table, sections, properties, -, -, -, rfl⟩ := ok_of_ofDocument hlen h
  have hsize := haddressable.nodes
  simp only [environmentOf, size_withGlobal] at hsize ⊢
  rw [TypeGraph.alloc, toNat_toUInt32 (by omega)]

end References

/-! ### Environments -/

/-- Nothing but the environment itself knows of the global node. -/
structure GlobalApart (environment : Environment) : Prop where
  last : environment.graph.size = environment.global.val.toNat + 1
  not_registered : ∀ id, environment.graph.registered? id ≠ some environment.global
  not_mem_nodes : ∀ node ∈ environment.graph.nodes, environment.global ∉ node.typeRefs
  not_mem_signatures : ∀ signature ∈ environment.graph.signatures, environment.global ∉ signature.typeRefs
  not_mem_globals : environment.global ∉ environment.globals.values
  not_mem_types : environment.global ∉ environment.types.values
  not_mem_ambient : environment.global ∉ environment.ambient.values
  not_mem_locations : environment.global ∉ environment.locations.types

/-- The global node is an interface of the properties, and they are the global names of one segment. -/
structure GathersGlobals (options : LoadOptions) (environment : Environment)
    (written : List (List String × Int)) (properties : OrderedMap String TypeId) : Prop where
  node : environment.graph.node? environment.global =
    some (.form (.interface { declaredProperties := properties }))
  entries : properties.entries.map flatEntry = environment.globals.entries.filter (·.1.length = 1)
  get? : ∀ name, properties.get? name = environment.globals.get? [name]
  /-- A name has the node of the record that it is written with last, whatever else begins with it. -/
  last : ∀ name, Option.Rel environment.graph.Numbered (written.reverse.lookup [name]) (properties.get? name)
  all : options.requireFlatGlobals = true →
    properties.entries.map flatEntry = environment.globals.entries

/-- The global node of what is loaded gathers the global names and stands apart from all else. -/
theorem gathersGlobals_of_ofJson (options : LoadOptions) (json : Json) (environment : Environment)
    (h : ofJson options json = .ok environment) (haddressable : environment.graph.Addressable) :
    environment.GlobalApart ∧ ∃ c properties, Document.canonical? json = some c ∧
      environment.GathersGlobals options c.globals properties := by
  obtain ⟨c, hc, hlists⟩ := exists_lists_of_ofJson h
  obtain ⟨document, hread, hload⟩ := ok_of_ofJson.1 h
  have hlen := Document.length_le_of_read hread
  have hholds := holds_of_ofDocument hlen hload haddressable
  have hne : ∀ t, (∃ id, environment.graph.registered? id = some t) → t ≠ environment.global := by
    rintro _ ⟨id, hid⟩ rfl
    exact registered?_ne_global hlen hload haddressable id hid
  obtain ⟨properties, hproperties, hnode⟩ := hholds.global
  refine ⟨?_, c, properties, hc, ?_⟩
  · exact {
      last := size_eq_global_succ hlen hload haddressable
      not_registered := registered?_ne_global hlen hload haddressable
      not_mem_nodes := fun node hnode ht =>
        hne _ (exists_registered_of_mem_nodes hlen hload haddressable hnode ht) rfl
      not_mem_signatures := fun signature hsignature ht =>
        hne _ (exists_registered_of_mem_signatures hlen hload haddressable hsignature ht) rfl
      not_mem_globals := fun ht => hne _ (hholds.sections.globals.registered ht) rfl
      not_mem_types := fun ht => hne _ (hholds.sections.types.registered ht) rfl
      not_mem_ambient := fun ht => hne _ (hholds.sections.ambient.registered ht) rfl
      not_mem_locations := fun ht => hne _ (hholds.sections.locations.registered ht) rfl }
  · have hentries := entries_globalProperties hproperties
    exact {
      node := hnode
      entries := hentries
      get? := get?_globalProperties hproperties
      last := fun name => get?_globalProperties hproperties name ▸ hlists.globals.get? [name]
      all := fun hrequire => hentries.trans (filter_length_of_requireFlat hproperties hrequire) }

/-- Global names of which one is written twice and another goes on from it, and a record that refers to
itself. -/
def globalsJson : Json :=
  .object [("globals", .array [Catalog.entryJson 0 ["a"], Catalog.entryJson 0 ["b"],
      Catalog.entryJson 0 ["a", "b"], Catalog.entryJson 1 ["a"]]),
    ("types", .object []),
    ("data", .array [.object [("kind", .string "Any")],
      .object [("kind", .string "Union"), ("elements", .array [.number (.int 1), .number (.int 0)])]])]

theorem gathersGlobals_globalsJson : ∃ environment,
    ofJson { requireFlatGlobals := false } globalsJson = .ok environment ∧
      environment.graph.Addressable ∧ environment.GlobalApart ∧
      ∃ c properties, Document.canonical? globalsJson = some c ∧
        environment.GathersGlobals { requireFlatGlobals := false } c.globals properties := by
  obtain ⟨environment, h, haddressable⟩ := Reading.exists_ok_of_any
    (x := ofJson { requireFlatGlobals := false } globalsJson)
    (P := fun environment => environment.graph.Addressable) (by decide +kernel)
  exact ⟨environment, h, haddressable, gathersGlobals_of_ofJson _ globalsJson environment h haddressable⟩

/-- `a` is the first property and has the node it is given last; `a.b` is none. -/
example : ((ofJson { requireFlatGlobals := false } globalsJson).toOption.bind fun environment =>
    environment.graph.node? environment.global) =
    some (.form (.interface { declaredProperties := .ofList [("a", ⟨3⟩), ("b", ⟨0⟩)] })) := by
  decide +kernel

end TypeEnv.Environment
