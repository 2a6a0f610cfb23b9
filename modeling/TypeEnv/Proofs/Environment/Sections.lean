import TypeEnv.Environment
import TypeEnv.Proofs.OrderedMap
import TypeEnv.Proofs.Resolver.Lookup

/-! Catalogs and locations with their records looked up. What they then hold are registered nodes. -/

namespace TypeEnv

open Resolver

variable {r : Resolver}

/-! ### Catalogs -/

/-- The names of a catalog with the nodes registered for their records. -/
def NamesOf (graph : TypeGraph) (entries : CatalogEntries) (table : NameTable) : Prop :=
  ∃ named : List (List String × TypeId), table = OrderedMap.ofList named ∧
    List.Forall₂ (fun entry n => n.1 = entry.1 ∧ graph.registered? entry.2 = some n.2) entries named

theorem looksUp_catalog (hr : r.phase = .resolved) (entries : CatalogEntries) :
    LooksUp r (entries.map Prod.snd) (Catalog.resolve entries) (NamesOf r.graph entries) := by
  have hentries := LooksUp.mapM entries fun entry =>
    (looksUp_resolve hr entry.2).map fun t => (entry.1, t)
  rw [← List.map_eq_flatMap] at hentries
  refine (hentries.map OrderedMap.ofList).imp ?_
  rintro _ ⟨named, hnamed, rfl⟩
  refine ⟨named, rfl, hnamed.imp ?_⟩
  rintro entry _ ⟨t, ht, rfl⟩
  exact ⟨rfl, ht⟩

theorem NamesOf.registered {graph : TypeGraph} {entries : CatalogEntries} {table : NameTable}
    (h : NamesOf graph entries table) {t : TypeId} (ht : t ∈ table.values) :
    ∃ id, graph.registered? id = some t := by
  obtain ⟨named, rfl, hnamed⟩ := h
  obtain ⟨n, hn, rfl⟩ := List.mem_map.1 (OrderedMap.mem_values_ofList ht)
  obtain ⟨entry, -, -, hentry⟩ := exists_of_forall₂ hnamed hn
  exact ⟨entry.2, hentry⟩

theorem NamesOf.find?_keys {graph : TypeGraph} {entries : CatalogEntries} {table : NameTable}
    (h : NamesOf graph entries table) (p : List String → Bool) :
    table.keys.find? p = (entries.map Prod.fst).find? p := by
  obtain ⟨named, rfl, hnamed⟩ := h
  have hpaths : entries.map Prod.fst = named.map Prod.fst :=
    map_eq_of_forall₂ (hnamed.imp fun _ _ hentry => hentry.1.symm)
  rw [OrderedMap.find?_keys_ofList, hpaths]

/-! ### Locations -/

namespace Locations

/-- Every node that is located. -/
def types (locations : Locations) : List TypeId :=
  locations.values.flatMap fun file => file.values.map (·.type)

theorem mem_types_add {locations : Locations} {pending : LocationEntry} {new t : TypeId}
    (h : t ∈ (locations.add pending new).types) : t = new ∨ t ∈ locations.types := by
  obtain ⟨file, hfile, ht⟩ := List.mem_flatMap.1 h
  obtain ⟨location, hlocation, rfl⟩ := List.mem_map.1 ht
  rcases OrderedMap.mem_values_insert hfile with rfl | hfile
  · rcases OrderedMap.mem_values_insert hlocation with rfl | hlocation
    · exact .inl rfl
    · right
      cases hold : OrderedMap.get? locations pending.file with
      | none =>
        rw [hold, Option.getD_none] at hlocation
        cases hlocation
      | some old =>
        rw [hold, Option.getD_some] at hlocation
        exact List.mem_flatMap.2
          ⟨old, OrderedMap.mem_values_of_get? hold, List.mem_map_of_mem hlocation⟩
  · exact .inr (List.mem_flatMap.2 ⟨file, hfile, List.mem_map_of_mem hlocation⟩)

/-- Locations gathered one after the other, each with the node registered for its record. -/
def Of (graph : TypeGraph) (pending : List LocationEntry) (locations : Locations) : Prop :=
  ∃ ts : List TypeId, List.Forall₂ (fun p t => graph.registered? p.id = some t) pending ts ∧
    locations = (pending.zip ts).foldl (fun locations entry => locations.add entry.1 entry.2) ∅

theorem looksUp_resolve (hr : r.phase = .resolved) (pending : List LocationEntry) :
    LooksUp r (pending.map (·.id)) (Locations.resolve pending) (Of r.graph pending) :=
  LooksUp.foldlM pending ∅ fun locations p =>
    (Resolver.looksUp_resolve hr p.id).map fun t => locations.add p t

theorem Of.registered {graph : TypeGraph} {pending : List LocationEntry} {locations : Locations}
    (h : Of graph pending locations) {t : TypeId} (ht : t ∈ locations.types) :
    ∃ id, graph.registered? id = some t := by
  obtain ⟨ts, hts, rfl⟩ := h
  have hfold : ∀ start : Locations, t ∈ ((pending.zip ts).foldl
      (fun locations entry => locations.add entry.1 entry.2) start).types →
        t ∈ start.types ∨ t ∈ ts := by
    clear ht
    induction hts with
    | nil => exact fun start h => .inl h
    | cons _ _ ih =>
      intro start h
      rcases ih _ h with h | h
      · rcases mem_types_add h with rfl | h
        · exact .inr List.mem_cons_self
        · exact .inl h
      · exact .inr (List.mem_cons_of_mem _ h)
  have hmem : t ∈ ts := (hfold ∅ ht).resolve_left nofun
  obtain ⟨p, -, hp⟩ := exists_of_forall₂ hts hmem
  exact ⟨p.id, hp⟩

end Locations

/-! ### All sections -/

namespace Environment

/-- What the catalogs and locations of a document name, in the order in which it is looked up. -/
def sectionIds (document : Document) : List RecordId :=
  document.globals.map Prod.snd ++ (document.types.map Prod.snd ++
    (document.ambient.map Prod.snd ++ document.locations.map (·.id)))

structure SectionsOf (graph : TypeGraph) (document : Document) (sections : Sections) : Prop where
  globals : NamesOf graph document.globals sections.globals
  types : NamesOf graph document.types sections.types
  ambient : NamesOf graph document.ambient sections.ambient
  locations : Locations.Of graph document.locations sections.locations

def resolveSections (document : Document) : Resolving Sections := do
  return {
    globals := ← Catalog.resolve document.globals
    types := ← Catalog.resolve document.types
    ambient := ← Catalog.resolve document.ambient
    locations := ← Locations.resolve document.locations }

theorem looksUp_sections (hr : r.phase = .resolved) (document : Document) :
    LooksUp r (sectionIds document) (resolveSections document) (SectionsOf r.graph document) := by
  have hall := (looksUp_catalog hr document.globals).bind fun globals =>
    (looksUp_catalog hr document.types).bind fun types =>
    (looksUp_catalog hr document.ambient).bind fun ambient =>
    (Locations.looksUp_resolve hr document.locations).map fun locations =>
      Sections.mk globals types ambient locations
  refine hall.imp ?_
  rintro _ ⟨globals, hglobals, types, htypes, ambient, hambient, locations, hlocations, rfl⟩
  exact ⟨hglobals, htypes, hambient, hlocations⟩

end Environment

end TypeEnv
