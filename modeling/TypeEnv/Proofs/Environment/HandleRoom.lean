import TypeEnv.Proofs.Environment.Placement

/-! Room for handles. Taking in the records of a document makes a node for each record and another one for
each record that is mentioned. The positions of records are numbers of 32 bits, and so are those of mentions,
but the nodes for both together can be more than there are handles. Then handles come round, and the first
nodes share theirs with nodes that are added later. -/

namespace TypeEnv

open Reading

/-- A node is given the handle that its place is cut down to. No two nodes are given the same one, and each handle
leads back to the place. -/
structure TypeGraph.OwnHandles (graph : TypeGraph) : Prop where
  distinct : ∀ i j, i < graph.size → j < graph.size → (⟨i.toUInt32⟩ : TypeId) = ⟨j.toUInt32⟩ → i = j
  addresses : ∀ i, i < graph.size → graph.node? ⟨i.toUInt32⟩ = graph.nodes[i]?

/-- Handles are enough for `0x100000000` nodes and for no more. -/
theorem TypeGraph.ownHandles_iff {graph : TypeGraph} : graph.OwnHandles ↔ graph.size ≤ 0x100000000 := by
  constructor
  · intro h
    by_contra hlt
    have hsame : (⟨(0 : ℕ).toUInt32⟩ : TypeId) = ⟨(0x100000000 : ℕ).toUInt32⟩ := rfl
    cases h.distinct 0 0x100000000 (by omega) (by omega) hsame
  · intro hsize
    refine ⟨fun i j hi hj h => ?_, fun i hi => ?_⟩
    · have hword := congrArg (fun t : TypeId => t.val.toNat) h
      simpa [toNat_toUInt32 (Nat.lt_of_lt_of_le hi hsize), toNat_toUInt32 (Nat.lt_of_lt_of_le hj hsize)] using hword
    · rw [node?, toNat_toUInt32 (Nat.lt_of_lt_of_le hi hsize)]

namespace Environment

open Stateful Resolver

variable {options : LoadOptions} {data : List Json} {records : List (Option (NestedRecord RecordId))}

/-- The state once records that were read have been taken in, and where it has their nodes. -/
theorem exists_places_of_readRecords (h : Document.readRecords options 0 data = .ok records) :
    ∃ r, (registerFrom 0 records).run.run {} = (.ok (), r) ∧ Places [] 0 records {} r := by
  have hlen : records.length ≤ 0x100000000 :=
    (Document.readRecords_eq_ok.1 h).1.trans_le (Document.length_le_of_readRecords h)
  let document : Document := { globals := [], types := [], ambient := [], locations := [], records }
  exact ⟨collected document, (@run_registerFrom_zero document hlen).1, @places_collected document hlen⟩

/-- When data is taken in, each node has a handle of its own exactly if its records, and the different records
that they mention, are together no more than there are handles. -/
theorem ownHandles_iff_of_readRecords (h : Document.readRecords options 0 data = .ok records) :
    ∃ r, (registerFrom 0 records).run.run {} = (.ok (), r) ∧
      r.graph.size = recordCount data + mentionCount records ∧
      (r.graph.OwnHandles ↔ recordCount data + mentionCount records ≤ 0x100000000) := by
  obtain ⟨r, hrun, hplaces⟩ := exists_places_of_readRecords h
  have hsize : r.graph.size = recordCount data + mentionCount records := by
    have hlength := congrArg List.length hplaces.nodes
    rw [List.length_map, ← countP_of_readRecords h, ← length_layout_nil] at *
    exact hlength
  exact ⟨r, hrun, hsize, by rw [TypeGraph.ownHandles_iff, hsize]⟩

/-! ### Mentioning every record -/

/-- A union of the first `n` records. -/
def unionOfFirst (n : ℕ) : Json :=
  .object [("kind", .string "Union"), ("elements", .array ((List.range n).map fun k : ℕ => .number (.int k)))]

variable {n : ℕ}

theorem spells_unionOfFirst (hn : n ≤ 0x100000000) :
    Record.Spells (unionOfFirst n) (.whole (.union ((List.range n).map fun k : ℕ => (k : ℤ)))) := by
  have hread : (Json.array ((List.range n).map fun k : ℕ => .number (.int k))).readReferences =
      .ok ((List.range n).map fun k : ℕ => (k : ℤ)) := by
    refine mapM_eq_ok.2 ?_
    rw [List.forall₂_map_left_iff, List.forall₂_map_right_iff, List.forall₂_same]
    intro k hk
    have hlt := List.mem_range.1 hk
    rw [Json.readInt64, if_pos (by omega)]
  refine ⟨_, "Union", .union, rfl, rfl, rfl, ?_⟩
  have hkind : (Layout.singleOptional "elements" Json.readReferences []).field? "kind" = none := rfl
  have hfield : (Layout.singleOptional "elements" Json.readReferences []).field? "elements" =
      some (.optional "elements" Json.readReferences fun value _ => value) := rfl
  simp only [Record.readFields, Record.readElements, Layout.ofMembers, Layout.readMembers, hkind, hfield,
    Field.optional, hread]
  rfl

theorem exists_read_unionOfFirst (hn : n ≤ 0x100000000) (options : LoadOptions) :
    ∃ record, Document.readRecords options 0 [unionOfFirst n] = .ok [some record] ∧
      record.mentions = (List.range n).map fun k => ⟨k.toUInt32⟩ := by
  have hmentions : (Record.whole (.union ((List.range n).map fun k : ℕ => (k : ℤ))) : NestedRecord ℤ).mentions =
      (List.range n).map fun k : ℕ => (k : ℤ) := by
    simp only [Record.mentions, Record.references, TypeForm.references, List.flatMap_map]
    exact List.map_eq_flatMap.symm
  have hnumber {k : ℕ} (hk : k < n) : RecordId.NumberOf k ⟨k.toUInt32⟩ := by
    rw [RecordId.numberOf_iff, toNat_toUInt32 (Nat.lt_of_lt_of_le hk hn)]
  obtain ⟨record, hcheck⟩ : ∃ record, Record.checkReferences s!"data[{(0 : ℕ).toUInt32}]"
      (.whole (.union ((List.range n).map fun k : ℕ => (k : ℤ)))) = .ok record := by
    refine Record.exists_checkReferences _ fun m hm => ?_
    rw [hmentions] at hm
    obtain ⟨k, hk, rfl⟩ := List.mem_map.1 hm
    exact ⟨_, hnumber (List.mem_range.1 hk)⟩
  have hread : Record.read ⟨(0 : ℕ).toUInt32⟩ (unionOfFirst n) = .ok record :=
    Record.read_eq_ok.2 ⟨_, spells_unionOfFirst hn, Record.check_eq_ok.2 ⟨hcheck, trivial⟩⟩
  refine ⟨record, Document.readRecords_eq_ok.2 ⟨rfl, fun k json hk => ?_⟩, ?_⟩
  · cases k with
    | zero =>
      obtain rfl := Option.some.inj hk
      have hat : Document.readRecord options ⟨(0 : ℕ).toUInt32⟩ (unionOfFirst n) = .ok (some record) :=
        Document.readRecord_eq_ok.2 (.inr ⟨rfl, record, rfl, hread⟩)
      exact ⟨_, rfl, Document.readAt_eq_ok.2 ⟨by decide, hat⟩⟩
    | succ k => simp at hk
  · have hids := (Record.checkReferences_eq_ok hcheck).1
    rw [hmentions, List.forall₂_map_left_iff] at hids
    have hwords : (List.range n).map (fun k => (⟨k.toUInt32⟩ : RecordId)) = record.mentions.map id := by
      refine map_eq_of_forall₂ (hids.imp fun k word hk => ?_)
      rw [Int.ofNat_inj.1 (RecordId.numberOf_iff.1 hk), RecordId.word_eq]
      rfl
    rw [hwords, List.map_id]

theorem eraseDups_of_nodup {ids : List RecordId} (h : ids.Nodup) : ids.eraseDups = ids :=
  (eq_eraseDups_of_find? h fun _ => rfl).symm

/-- Each record of a union has a placeholder, and the union comes after them. -/
theorem exists_run_unionOfFirst (hpos : 0 < n) (hn : n ≤ 0x100000000) (options : LoadOptions) :
    ∃ record r, Document.readRecords options 0 [unionOfFirst n] = .ok [some record] ∧
      (registerFrom 0 [some record]).run.run {} = (.ok (), r) ∧ r.graph.size = n + 1 ∧
      r.graph.node? ⟨0⟩ = some (.placeholder ⟨0⟩) ∧ r.graph.registered? ⟨0⟩ = some ⟨n.toUInt32⟩ := by
  obtain ⟨record, hread, hmentions⟩ := exists_read_unionOfFirst hn options
  obtain ⟨r, hrun, hplaces⟩ := exists_places_of_readRecords hread
  have hnodup : record.mentions.Nodup := by
    rw [hmentions]
    refine List.nodup_range.map_on fun k hk k' hk' h => ?_
    have hlt := Nat.lt_of_lt_of_le (List.mem_range.1 hk) hn
    have hlt' := Nat.lt_of_lt_of_le (List.mem_range.1 hk') hn
    simpa [toNat_toUInt32 hlt, toNat_toUInt32 hlt'] using congrArg (fun id : RecordId => id.val.toNat) h
  have hfirst : firstMentions [] record = (List.range n).map fun k => ⟨k.toUInt32⟩ := by
    rw [firstMentions, List.removeAll_nil, eraseDups_of_nodup hnodup, hmentions]
  have hnodes := hplaces.nodes
  rw [layout, hfirst, layout] at hnodes
  have hregistered := hplaces.registered 0 record rfl
  simp only [List.take_zero, layout, mentionsOf, List.filterMap_nil, List.flatMap_nil, List.append_nil, hfirst,
    List.length_nil, List.length_map, List.length_range, Nat.add_zero] at hregistered
  rw [show (∅ : TypeGraph).size = 0 from rfl, Nat.zero_add] at hregistered
  refine ⟨record, r, hread, hrun, ?_, ?_, hregistered⟩
  · simpa [TypeGraph.size] using congrArg List.length hnodes
  · obtain ⟨m, rfl⟩ := Nat.exists_eq_add_of_lt hpos
    rw [List.range_succ_eq_map] at hnodes
    obtain ⟨node, rest, hlist, hstands, -⟩ := List.map_eq_cons_iff.1 hnodes
    obtain rfl : node = .placeholder ⟨0⟩ := Node.eq_placeholder_of_standsFor? hstands
    rw [TypeGraph.node?, ← Array.getElem?_toList, hlist]
    rfl

theorem ownHandles_unionOfOne : ∃ records, Document.readRecords {} 0 [unionOfFirst 1] = .ok records ∧
    ∃ r, (registerFrom 0 records).run.run {} = (.ok (), r) ∧
      r.graph.size = recordCount [unionOfFirst 1] + mentionCount records ∧
      (r.graph.OwnHandles ↔ recordCount [unionOfFirst 1] + mentionCount records ≤ 0x100000000) := by
  obtain ⟨record, hread, -⟩ := exists_read_unionOfFirst (n := 1) (by decide) {}
  exact ⟨_, hread, ownHandles_iff_of_readRecords hread⟩

/-- A single record that mentions every position that 32 bits can number is taken in, and then the handle of its
node is that of the placeholder that stands in for it. -/
theorem not_ownHandles_unionOfAll : ∃ record r,
    Document.readRecords {} 0 [unionOfFirst 0x100000000] = .ok [some record] ∧
      (registerFrom 0 [some record]).run.run {} = (.ok (), r) ∧ ¬ r.graph.OwnHandles ∧
      r.graph.node? ⟨0⟩ = some (.placeholder ⟨0⟩) ∧ r.graph.registered? ⟨0⟩ = some ⟨0⟩ := by
  obtain ⟨record, r, hread, hrun, hsize, hnode, hregistered⟩ :=
    exists_run_unionOfFirst (n := 0x100000000) (by decide) (Nat.le_refl _) {}
  refine ⟨record, r, hread, hrun, ?_, hnode, hregistered⟩
  rw [TypeGraph.ownHandles_iff, hsize]
  decide

end Environment

end TypeEnv
