import TypeEnv.Proofs.Environment.Contents
import TypeEnv.Proofs.Environment.Forms
import TypeEnv.Proofs.Environment.Listings
import TypeEnv.Proofs.Record.Kinds
import TypeEnv.Report

/-! What the counts of a summary count. Nodes are counted by kind, and those of records have the kind that
their record is written with, so the kinds recount the records and the global node; the nodes without a
kind stand in for what the records mention. -/

namespace TypeEnv

/-! ### Counting kinds -/

namespace OrderedMap

variable {κ : Type} [DecidableEq κ]

theorem sum_insertEntry (key : κ) (n : ℕ) (entries : List (κ × ℕ)) :
    ((insertEntry key n entries).map Prod.snd).sum + ((entries.find? (·.1 = key)).map Prod.snd).getD 0 =
      (entries.map Prod.snd).sum + n := by
  induction entries with
  | nil => simp [insertEntry]
  | cons entry entries ih =>
    rw [insertEntry]
    by_cases h : entry.1 = key
    · simp only [h, if_true, List.map_cons, List.sum_cons, decide_true, List.find?_cons_of_pos, Option.map_some,
        Option.getD_some]
      omega
    · rw [List.find?_cons_of_neg (by simpa using h), if_neg h]
      simp only [List.map_cons, List.sum_cons]
      omega

theorem sum_values_update_succ (m : OrderedMap κ ℕ) (key : κ) :
    (m.update key 0 (· + 1)).values.sum = m.values.sum + 1 := by
  have h := sum_insertEntry key ((m.get? key).getD 0 + 1) m.entries
  change (m.update key 0 (· + 1)).values.sum + (m.get? key).getD 0 = m.values.sum + _ at h
  omega

end OrderedMap

namespace Summary

theorem countKinds_concat (kinds : List Kind) (kind : Kind) :
    countKinds (kinds ++ [kind]) = (countKinds kinds).update kind 0 (· + 1) := by
  rw [countKinds, List.foldl_append]
  rfl

theorem getD_countKinds (kinds : List Kind) (kind : Kind) :
    ((countKinds kinds).get? kind).getD 0 = kinds.count kind := by
  induction kinds using List.reverseRecOn with
  | nil => rfl
  | append_singleton kinds last ih =>
    rw [countKinds_concat, OrderedMap.update, OrderedMap.get?_insert, List.count_append, List.count_singleton, ← ih]
    by_cases h : last = kind
    · simp [h]
    · simp [h]

theorem keys_countKinds (kinds : List Kind) : (countKinds kinds).keys = kinds.eraseDups := by
  induction kinds using List.reverseRecOn with
  | nil => rfl
  | append_singleton kinds last ih =>
    rw [countKinds_concat, OrderedMap.update, OrderedMap.keys_insert, ih, OrderedMap.eraseDups_concat]
    simp only [List.mem_eraseDups]

theorem sum_countKinds (kinds : List Kind) : (countKinds kinds).values.sum = kinds.length := by
  induction kinds using List.reverseRecOn with
  | nil => rfl
  | append_singleton kinds last ih =>
    rw [countKinds_concat, OrderedMap.sum_values_update_succ, ih, List.length_append, List.length_singleton]

end Summary

/-! ### Tags -/

/-- The text that a record names its kind with. -/
def Json.tag? : Json → Option String
  | .object members =>
    match members.lookup "kind" with
    | some (.string tag) => some tag
    | _ => none
  | _ => none

theorem Kind.tag_injective : Function.Injective Kind.tag := by
  intro kind kind' h
  have hkind := ofTag?_tag kind
  rw [h, ofTag?_tag] at hkind
  exact (Option.some.inj hkind).symm

/-- Kinds repeat where their tags do. -/
theorem Kind.map_tag_eraseDups (kinds : List Kind) :
    kinds.eraseDups.map Kind.tag = (kinds.map Kind.tag).eraseDups := by
  induction kinds using List.reverseRecOn with
  | nil => rfl
  | append_singleton kinds last ih =>
    rw [List.map_append, List.map_singleton, OrderedMap.eraseDups_concat, OrderedMap.eraseDups_concat, ← ih]
    simp only [List.mem_map_of_injective tag_injective]
    split <;> simp

namespace Environment

open Resolver

section Records

variable {options : LoadOptions} {data : List Json} {records : List (Option (NestedRecord RecordId))}
  (hrecords : Document.readRecords options 0 data = .ok records)

include hrecords

theorem map_tag? : data.map Json.tag? = records.map (Option.map (·.form.kind.tag)) := by
  obtain ⟨hlen, hread⟩ := Document.readRecords_eq_ok.1 hrecords
  refine List.ext_getElem? fun k => ?_
  rw [List.getElem?_map, List.getElem?_map]
  cases hk : data[k]? with
  | none =>
    rw [List.getElem?_eq_none_iff, ← hlen, ← List.getElem?_eq_none_iff] at hk
    rw [hk]
    rfl
  | some json =>
    obtain ⟨record, hrecord, hat⟩ := hread k json hk
    rw [hrecord, Option.map_some, Option.map_some]
    rcases Document.readRecord_eq_ok.1 (Document.readAt_eq_ok.1 hat).2 with ⟨hnull, -, rfl⟩ | ⟨-, record, rfl, hread⟩
    · cases json with
      | null => rfl
      | _ => cases hnull
    · obtain ⟨members, rfl, hkind⟩ := Record.exists_kind_of_read hread
      rw [Json.tag?, hkind]
      rfl

/-- The tags of the records that are not null are those of the types that the records describe. -/
theorem filterMap_tag? : data.filterMap Json.tag? = (records.filterMap id).map (·.form.kind.tag) := by
  have h := congrArg (List.filterMap id) (map_tag? hrecords)
  rw [List.filterMap_map, List.filterMap_map] at h
  rw [List.map_filterMap]
  exact h

end Records

/-- The kinds of the nodes are those of the records, and that of the global node. -/
theorem HasForms.map_kind {environment : Environment} {records : List (Option (NestedRecord RecordId))}
    {forms : List (TypeForm TypeId SignatureId)} (h : environment.HasForms records forms) :
    environment.graph.nodes.toList.filterMap Node.kind? =
      (records.filterMap id).map (·.form.kind) ++ [.interface] := by
  obtain ⟨properties, heq⟩ := h.forms_eq
  rw [environment.graph.filterMap_kind?, heq, List.map_append]
  refine congrArg (· ++ [Kind.interface]) (map_eq_of_forall₂ (h.related.imp fun _ _ hsays => ?_)).symm
  exact hsays.kind_eq.symm

theorem length_rowsFrom (start : ℕ) (records : List (Option (NestedRecord RecordId))) :
    (rowsFrom start records).length = (records.map signaturesIn).sum := by
  induction records generalizing start with
  | nil => rfl
  | cons first records ih => rw [length_rowsFrom_cons, ih, List.map_cons, List.sum_cons]

end Environment

/-! ### Locations -/

namespace Locations

variable {α β : Type}

theorem length_flat (files : OrderedMap String (OrderedMap String α)) :
    (flat files).length = (files.values.flatMap (·.values)).length := by
  simp [flat, OrderedMap.values, List.length_flatMap, Function.comp_def]

theorem mem_map_fst_flat {files : OrderedMap String (OrderedMap String α)} {file key : String} :
    (file, key) ∈ (flat files).map Prod.fst ↔ (at? files file key).isSome := by
  rw [Option.isSome_iff_exists, List.mem_map]
  constructor
  · rintro ⟨⟨_, a⟩, hmem, rfl⟩
    exact ⟨a, mem_flat_iff.1 hmem⟩
  · rintro ⟨a, ha⟩
    exact ⟨_, mem_flat_iff.2 ha, rfl⟩

/-- Files with entries at the same places have equally many of them. -/
theorem length_flat_eq {R : α → β → Prop} {files : OrderedMap String (OrderedMap String α)}
    {files' : OrderedMap String (OrderedMap String β)}
    (h : ∀ file key, Option.Rel R (at? files file key) (at? files' file key)) :
    (flat files).length = (flat files').length := by
  have hperm : ((flat files).map Prod.fst).Perm ((flat files').map Prod.fst) := by
    refine (List.perm_ext_iff_of_nodup (nodup_flat files) (nodup_flat files')).2 ?_
    rintro ⟨file, key⟩
    have hrel := h file key
    rw [mem_map_fst_flat, mem_map_fst_flat]
    generalize at? files file key = a at hrel ⊢
    generalize at? files' file key = b at hrel ⊢
    cases hrel <;> rfl
  simpa using hperm.length_eq

end Locations

/-! ### Summaries -/

/-- What is counted, told from the data of a document, its records and its other fields. -/
structure Summary.Recounts (summary : Summary) (data : List Json)
    (records : List (Option (NestedRecord RecordId))) (c : Document.Canonical) : Prop where
  /-- As many as there are records of the kind, and the global node. -/
  kind : ∀ kind, (summary.kinds.get? kind).getD 0 =
    data.countP (·.tag? = some kind.tag) + if kind = .interface then 1 else 0
  /-- In the order in which the kinds first occur, with the global node after all records. -/
  kinds : summary.kinds.keys.map Kind.tag = (data.filterMap Json.tag? ++ [Kind.interface.tag]).eraseDups
  registered : summary.registered = Environment.recordCount data
  sum : summary.kinds.values.sum = summary.registered + 1
  /-- The nodes without a kind stand in for the records that are mentioned, one for each. -/
  nodes : summary.nodes = summary.kinds.values.sum + Environment.mentionCount records
  /-- All signatures of a record are counted, those inside others among them. -/
  signatures : summary.signatures = (records.map Environment.signaturesIn).sum
  locations : summary.locations = (Locations.flat c.locations).length
  globals : summary.globals = (c.globals.map Prod.fst).eraseDups.length
  types : summary.types = (c.types.map Prod.fst).eraseDups.length
  ambient : summary.ambient = (c.ambient.map Prod.fst).eraseDups.length

namespace Environment

section Parts

variable {environment : Environment} {options : LoadOptions} {document : Document} {data : List Json}
  {forms : List (TypeForm TypeId SignatureId)} {c : Document.Canonical}
  (hrecords : Document.readRecords options 0 data = .ok document.records)
  (hforms : environment.HasForms document.records forms)

include hrecords hforms

/-- The kinds of the nodes are written as the tags of the records are. -/
theorem map_tag_kinds : (environment.graph.nodes.toList.filterMap Node.kind?).map Kind.tag =
    data.filterMap Json.tag? ++ [Kind.interface.tag] := by
  rw [hforms.map_kind, filterMap_tag? hrecords, List.map_append, List.map_map]
  rfl

theorem length_kinds : (environment.graph.nodes.toList.filterMap Node.kind?).length = recordCount data + 1 := by
  rw [hforms.map_kind, List.length_append, List.length_map, List.length_singleton, ← countP_of_readRecords hrecords,
    List.length_filterMap_eq_countP]
  rfl

theorem count_kinds (kind : Kind) : (environment.graph.nodes.toList.filterMap Node.kind?).count kind =
    data.countP (·.tag? = some kind.tag) + if kind = .interface then 1 else 0 := by
  rw [← List.count_map_of_injective _ Kind.tag Kind.tag_injective, map_tag_kinds hrecords hforms, List.count_append,
    List.count_filterMap, List.count_singleton]
  simp only [beq_eq_decide, decide_eq_true_eq, Kind.tag_injective.eq_iff, eq_comm (a := Kind.interface)]

theorem recounts_of_parts (hholds : environment.Holds options document)
    (hlaid : environment.LaidOut data document.records) (hlists : environment.Lists environment.graph.Numbered c) :
    (Summary.of environment).Recounts data document.records c := by
  have hkinds : (Summary.of environment).kinds =
      Summary.countKinds (environment.graph.nodes.toList.filterMap Node.kind?) := rfl
  have hsum : (Summary.of environment).kinds.values.sum = recordCount data + 1 := by
    rw [hkinds, Summary.sum_countKinds, length_kinds hrecords hforms]
  have hsize : ∀ {written : List (List String × Int)} {table : NameTable},
      Catalog.TableOf environment.graph.Numbered written table →
        table.size = (written.map Prod.fst).eraseDups.length := by
    intro written table h
    rw [← h.keys_eq, OrderedMap.keys, List.length_map]
    rfl
  exact {
    kind := fun kind => by rw [hkinds, Summary.getD_countKinds, count_kinds hrecords hforms]
    kinds := by rw [hkinds, Summary.keys_countKinds, Kind.map_tag_eraseDups, map_tag_kinds hrecords hforms]
    registered := hlaid.registeredCount_eq
    sum := hsum.trans (congrArg (· + 1) hlaid.registeredCount_eq.symm)
    nodes := by
      rw [hsum, Nat.add_right_comm]
      exact hlaid.size_eq
    signatures := hholds.signatureCount_eq.trans (length_rowsFrom 0 document.records)
    locations := (Locations.length_flat _).symm.trans (Locations.length_flat_eq hlists.locations).symm
    globals := hsize hlists.globals
    types := hsize hlists.types
    ambient := hsize hlists.ambient }

end Parts

/-- The summary of what is loaded recounts its document. -/
theorem recounts_of_ofJson (options : LoadOptions) (json : Json) (environment : Environment)
    (h : ofJson options json = .ok environment) (haddressable : environment.graph.Addressable) :
    ∃ members data records c, json = .object members ∧ members.lookup "data" = some (.array data) ∧
      RecordsOf data records ∧ Document.canonical? json = some c ∧
      (Summary.of environment).Recounts data records c := by
  obtain ⟨c, hc, hlists⟩ := exists_lists_of_ofJson h
  obtain ⟨members, data, document, rfl, hdata, hlen, hrecords, hload⟩ := exists_data_of_ofJson h
  have hlaid := laidOut_of_ofDocument hrecords hload haddressable
  have hholds := holds_of_ofDocument hlen hload haddressable
  obtain ⟨forms, hforms⟩ := exists_hasForms_of_ofDocument hlen hload haddressable
  exact ⟨members, data, document.records, c, rfl, hdata, ⟨(Document.readRecords_eq_ok.1 hrecords).1,
    fun _ _ => Document.getElem?_records hrecords⟩, hc, recounts_of_parts hrecords hforms hholds hlaid hlists⟩

/-- Kinds that repeat, an interface that is written last, a null, a record that only a catalog mentions, a
signature inside a signature, and keys that repeat in different files. -/
def countsJson : Json :=
  .object [("globals", .object [("window", .number (.int 1))]), ("types", .object []),
    ("locations", .object [
      ("a.ts", .object [("1", .object [("kind", .string "Interface"), ("type", .number (.int 4))]),
        ("2", .object [("kind", .string "Alias"), ("type", .number (.int 0))])]),
      ("b.ts", .object [("1", .object [("kind", .string "Alias"), ("type", .number (.int 0))])])]),
    ("data", .array [.object [("kind", .string "Any")],
      .object [("kind", .string "Union"), ("elements", .array [.number (.int 0), .number (.int 4)])], .null,
      .object [("kind", .string "Any")],
      .object [("kind", .string "Interface"), ("declaredCallSignatures", .array [
        .object [("resolvedReturnType", .number (.int 0)),
          ("target", .object [("resolvedReturnType", .number (.int 4))])]])]])]

theorem recounts_countsJson : ∃ environment, ofJson { nullRecords := .skip } countsJson = .ok environment ∧
    environment.graph.Addressable ∧ ∃ members data records c, countsJson = .object members ∧
      members.lookup "data" = some (.array data) ∧ RecordsOf data records ∧
      Document.canonical? countsJson = some c ∧ (Summary.of environment).Recounts data records c := by
  obtain ⟨environment, h, haddressable⟩ := Reading.exists_ok_of_any
    (x := ofJson { nullRecords := .skip } countsJson)
    (P := fun environment => environment.graph.Addressable) (by decide +kernel)
  exact ⟨environment, h, haddressable, recounts_of_ofJson _ countsJson environment h haddressable⟩

/-- Four records and the global node, and placeholders for the two records that are mentioned. -/
example : ((ofJson { nullRecords := .skip } countsJson).toOption.map fun environment =>
    let summary := Summary.of environment
    (summary.kinds.entries, summary.nodes, summary.signatures, summary.locations)) =
    some ([(.simple .any, 2), (.union, 1), (.interface, 2)], 7, 2, 3) := by
  decide +kernel

end Environment

end TypeEnv
