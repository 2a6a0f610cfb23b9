import TypeEnv.Proofs.Graph.MapTypes

/-! Where aliases lead. The end of an alias chain is never a placeholder, so once every placeholder
of the arena has an end, exchanging each for its end leaves no reference to a placeholder: not in a
node, not in a signature, reachable or not, and not in the registry. -/

namespace TypeEnv

/-- The record that a node stands in for. -/
def Node.standsFor? : Node → Option RecordId
  | placeholder id => some id
  | form _ => none

namespace TypeGraph

variable (graph : TypeGraph)

/-- The handle is that of a placeholder. -/
def StandsIn (t : TypeId) : Prop := ∃ id, graph.node? t = some (.placeholder id)

/-- The step of `terminals` at one node. -/
def noteTerminal (table : Std.TreeMap TypeId TypeId) (entry : Node × Nat) :
    Except ResolveError (Std.TreeMap TypeId TypeId) :=
  match entry with
  | (.placeholder first, index) => return table.insert ⟨index.toUInt32⟩ (← graph.terminal first)
  | (.form _, _) => return table

theorem terminals_eq : graph.terminals = graph.nodes.toList.zipIdx.foldlM graph.noteTerminal ∅ :=
  rfl

/-- The records that are stood in for, in the order of the arena. -/
def mentioned : List RecordId :=
  graph.nodes.toList.filterMap Node.standsFor?

variable {graph}

theorem followAliases_ok {first id : RecordId} {hops : Nat} {t : TypeId}
    (h : graph.followAliases first id hops = .ok t) : ¬ graph.StandsIn t := by
  fun_induction TypeGraph.followAliases graph first id hops with
  | case1 => cases h
  | case2 => cases h
  | case3 _ _ _ _ _ _ ih => exact ih h
  | case4 hops id target hregistered hlast hhop =>
    obtain rfl : target = t := by simpa using h
    rintro ⟨next, hnext⟩
    rcases hops with _ | hops
    · exact hlast next hnext rfl
    · exact hhop next hops hnext rfl

/-- Aliases that do not end lead to a record that is registered nowhere, or in a circle. -/
theorem followAliases_error {first id : RecordId} {hops : Nat} {error : ResolveError}
    (h : graph.followAliases first id hops = .error error) :
    (∃ missing, error = .unresolvedId missing ∧ graph.registered? missing = none) ∨
      error = .endlessAlias first := by
  fun_induction TypeGraph.followAliases graph first id hops with
  | case1 hops id hnone =>
    left
    exact ⟨id, by simpa using h.symm, hnone⟩
  | case2 =>
    right
    simpa using h.symm
  | case3 _ _ _ _ _ _ ih => exact ih h
  | case4 => cases h

/-! ### The table of ends -/

/-- What an entry of the table says: some placeholder has this handle and leads there. -/
def Leads (graph : TypeGraph) (entries : List (Node × Nat)) (t u : TypeId) : Prop :=
  ∃ id index, (.placeholder id, index) ∈ entries ∧ t = ⟨index.toUInt32⟩ ∧ graph.terminal id = .ok u

theorem foldlM_noteTerminal {entries : List (Node × Nat)} {table table' : Std.TreeMap TypeId TypeId}
    (h : entries.foldlM graph.noteTerminal table = .ok table') :
    (∀ t u, table'[t]? = some u → table[t]? = some u ∨ Leads graph entries t u) ∧
      (∀ t, t ∈ table → t ∈ table') ∧
      ∀ id index, (Node.placeholder id, index) ∈ entries → ⟨index.toUInt32⟩ ∈ table' := by
  induction entries generalizing table with
  | nil =>
    obtain rfl : table = table' := by simpa [pure, Except.pure] using h
    exact ⟨fun t u => .inl, fun t => id, nofun⟩
  | cons entry entries ih =>
    rw [List.foldlM_cons] at h
    rcases entry with ⟨form | first, index⟩
    · obtain ⟨hvalue, hmem, hkey⟩ := ih h
      refine ⟨fun t u htu => (hvalue t u htu).imp_right ?_, hmem, fun id index hid => ?_⟩
      · rintro ⟨id, index, hid, hlead⟩
        exact ⟨id, index, List.mem_cons_of_mem _ hid, hlead⟩
      · exact hkey id index (by simpa using hid)
    · rcases hend : graph.terminal first with error | u
      · simp [noteTerminal, hend, bind, Except.bind] at h
      · simp only [noteTerminal, hend] at h
        obtain ⟨hvalue, hmem, hkey⟩ := ih h
        refine ⟨fun t v htv => ?_, fun t ht => hmem t (by simp [ht]), fun id i hid => ?_⟩
        · rcases hvalue t v htv with htable | ⟨id, i, hid, hlead⟩
          · rw [Std.TreeMap.getElem?_insert] at htable
            split at htable
            · next heq =>
              obtain rfl := Std.LawfulEqOrd.eq_of_compare heq
              obtain rfl : u = v := by simpa using htable
              exact .inr ⟨first, index, List.mem_cons_self, rfl, hend⟩
            · exact .inl htable
          · exact .inr ⟨id, i, List.mem_cons_of_mem _ hid, hlead⟩
        · rcases List.mem_cons.1 hid with heq | hid
          · obtain ⟨rfl, rfl⟩ : id = first ∧ i = index := by simpa using heq
            exact hmem _ (by simp)
          · exact hkey id i hid

/-- Every entry of the table comes from a placeholder of the arena. -/
theorem leads_of_terminals {table : Std.TreeMap TypeId TypeId} (h : graph.terminals = .ok table)
    {t u : TypeId} (htu : table[t]? = some u) : ∃ (id : RecordId) (index : Nat),
      graph.nodes[index]? = some (.placeholder id) ∧ t = ⟨index.toUInt32⟩ ∧
        graph.terminal id = .ok u := by
  rw [terminals_eq] at h
  rcases (foldlM_noteTerminal h).1 t u htu with hempty | ⟨id, index, hid, ht, hu⟩
  · simp at hempty
  · exact ⟨id, index, by simpa [List.mem_zipIdx_iff_getElem?] using hid, ht, hu⟩

/-- Every placeholder of the arena has its entry. -/
theorem mem_terminals {table : Std.TreeMap TypeId TypeId} (h : graph.terminals = .ok table)
    {id : RecordId} {index : Nat} (hid : graph.nodes[index]? = some (.placeholder id)) :
    ⟨index.toUInt32⟩ ∈ table := by
  rw [terminals_eq] at h
  refine (foldlM_noteTerminal h).2.2 id index ?_
  simpa [List.mem_zipIdx_iff_getElem?] using hid

theorem error_of_foldlM_noteTerminal {entries : List (Node × Nat)}
    {table : Std.TreeMap TypeId TypeId} {error : ResolveError}
    (h : entries.foldlM graph.noteTerminal table = .error error) :
    ∃ first index, (.placeholder first, index) ∈ entries ∧
      graph.terminal first = .error error := by
  induction entries generalizing table with
  | nil => cases h
  | cons entry entries ih =>
    rw [List.foldlM_cons] at h
    rcases entry with ⟨form | first, index⟩
    · obtain ⟨first', index', hmem, hend⟩ := ih h
      exact ⟨first', index', List.mem_cons_of_mem _ hmem, hend⟩
    · rcases hend : graph.terminal first with error' | t
      · obtain rfl : error' = error := by
          simpa [noteTerminal, hend, bind, Except.bind] using h
        exact ⟨first, index, List.mem_cons_self, hend⟩
      · simp only [noteTerminal, hend] at h
        obtain ⟨first', index', hmem, hend'⟩ := ih h
        exact ⟨first', index', List.mem_cons_of_mem _ hmem, hend'⟩

/-- What is wrong with the placeholders of an arena is wrong with one of them. -/
theorem error_of_terminals {error : ResolveError} (h : graph.terminals = .error error) :
    ∃ first, .placeholder first ∈ graph.nodes ∧ graph.terminal first = .error error := by
  rw [terminals_eq] at h
  obtain ⟨first, index, hmem, hend⟩ := error_of_foldlM_noteTerminal h
  refine ⟨first, ?_, hend⟩
  have hindex : graph.nodes[index]? = some (.placeholder first) := by
    simpa [List.mem_zipIdx_iff_getElem?] using hmem
  exact Array.mem_of_getElem? hindex

/-! ### Exchanging placeholders for their ends -/

/-- No handle that a node, a signature or the registry holds is that of a placeholder. -/
structure Settled (graph : TypeGraph) : Prop where
  nodes : ∀ node ∈ graph.nodes, ∀ t ∈ node.typeRefs, ¬ graph.StandsIn t
  signatures : ∀ signature ∈ graph.signatures, ∀ t ∈ signature.typeRefs, ¬ graph.StandsIn t
  registry : ∀ id t, graph.registered? id = some t → ¬ graph.StandsIn t

theorem standsIn_mapTypes {f : TypeId → TypeId} {t : TypeId} :
    (graph.mapTypes f).StandsIn t ↔ graph.StandsIn t := by
  simp only [StandsIn, node?_mapTypes, Option.map_eq_some_iff]
  refine exists_congr fun id => ⟨?_, fun h => ⟨_, h, rfl⟩⟩
  rintro ⟨form | id', h, heq⟩
  · cases heq
  · cases heq
    exact h

theorem not_standsIn_getD {table : Std.TreeMap TypeId TypeId} (h : graph.terminals = .ok table)
    (t : TypeId) : ¬ graph.StandsIn (table.getD t t) := by
  rw [Std.TreeMap.getD_eq_getD_getElem?]
  rcases htu : table[t]? with _ | u
  · rintro ⟨id, hid⟩
    have hmem := mem_terminals h hid
    rw [Nat.toUInt32_eq, UInt32.ofNat_toNat] at hmem
    simp [Std.TreeMap.mem_iff_isSome_getElem?, htu] at hmem
  · obtain ⟨id, index, -, -, hend⟩ := leads_of_terminals h htu
    exact followAliases_ok hend

theorem settled_mapTypes {table : Std.TreeMap TypeId TypeId} (h : graph.terminals = .ok table) :
    (graph.mapTypes fun t => table.getD t t).Settled where
  nodes node hnode t ht := by
    obtain ⟨node, -, rfl⟩ := Array.mem_map.1 hnode
    rw [Node.typeRefs_mapTypes] at ht
    obtain ⟨t, -, rfl⟩ := List.mem_map.1 ht
    exact standsIn_mapTypes.not.2 (not_standsIn_getD h t)
  signatures signature hsignature t ht := by
    obtain ⟨signature, -, rfl⟩ := Array.mem_map.1 hsignature
    rw [Signature.typeRefs_mapTypes] at ht
    obtain ⟨t, -, rfl⟩ := List.mem_map.1 ht
    exact standsIn_mapTypes.not.2 (not_standsIn_getD h t)
  registry id t ht := by
    rw [registered?_mapTypes, Option.map_eq_some_iff] at ht
    obtain ⟨t, -, rfl⟩ := ht
    exact standsIn_mapTypes.not.2 (not_standsIn_getD h t)

end TypeGraph

end TypeEnv
