import TypeEnv.Document
import TypeEnv.Proofs.Form.Related
import TypeEnv.Proofs.Ident

/-! Which sections of a document are well formed, and what they name. A catalog is an array of entries
or a tree; both list names with integers, and a catalog reads as its list with the records of these
integers. What a tree lists is told by its leaves, and flattening it reads them one after the other.
Locations are told by their integers only. -/

namespace TypeEnv

open Reading RecordId LoadError

namespace Catalog

/-! ### What is written -/

mutual

/-- The leaves of a tree from left to right, each with the path that leads to it. -/
def leaves : List String → Json → List (List String × Json)
  | path, .object branches => branchLeaves path branches
  | path, leaf => [(path, leaf)]
termination_by structural _ tree => tree

def branchLeaves : List String → List (String × Json) → List (List String × Json)
  | _, [] => []
  | path, (name, tree) :: branches => leaves (path ++ [name]) tree ++ branchLeaves path branches
termination_by structural _ branches => branches

end

/-- The leaves of several trees, each with the path that leads to it. -/
def forestLeaves (trees : List (List String × Json)) : List (List String × Json) :=
  trees.flatMap fun tree => leaves tree.1 tree.2

/-- The name and the integer of a leaf that is one. -/
def listedLeaf? : List String × Json → Option (List String × Int)
  | (path, .number (.int n)) => some (path, n)
  | _ => none

/-- The names and integers of a catalog that is well formed. -/
def listing? : Json → Option (List (List String × Int))
  | .array items => do
    let entries ← (items.mapM entryLayout.read).toOption
    if entries.all fun entry => !entry.name.isEmpty then
      return entries.map fun entry => (entry.name, entry.type)
    else none
  | .object branches => (leaves [] (.object branches)).mapM listedLeaf?
  | _ => none

theorem listedLeaf?_eq_some {leaf : List String × Json} {written : List String × Int} :
    listedLeaf? leaf = some written ↔ leaf = (written.1, .number (.int written.2)) := by
  obtain ⟨path, json⟩ := leaf
  obtain ⟨path', n⟩ := written
  cases json with
  | number number => cases number <;> simp [listedLeaf?]
  | _ => simp [listedLeaf?]

mutual

/-- The path of a leaf goes on from that of its tree. -/
theorem prefix_of_mem_leaves : ∀ {path : List String} {tree : Json}, ∀ leaf ∈ leaves path tree, path <+: leaf.1
  | path, .object branches, leaf, h => by
    obtain ⟨name, -, hname⟩ :=
      exists_prefix_of_mem_branchLeaves leaf (show leaf ∈ branchLeaves path branches from h)
    exact (List.prefix_append path [name]).trans hname
  | _, .null, _, h | _, .bool _, _, h | _, .number _, _, h | _, .string _, _, h | _, .array _, _, h =>
    List.mem_singleton.1 h ▸ List.prefix_refl _
termination_by structural _ tree => tree

theorem exists_prefix_of_mem_branchLeaves : ∀ {path : List String} {branches : List (String × Json)},
    ∀ leaf ∈ branchLeaves path branches, ∃ name ∈ branches.map Prod.fst, path ++ [name] <+: leaf.1
  | _, [], _, h => nomatch h
  | path, (name, tree) :: branches, leaf, h => by
    rcases List.mem_append.1 h with h | h
    · exact ⟨name, List.mem_cons_self, prefix_of_mem_leaves leaf h⟩
    · obtain ⟨name', hname', hprefix⟩ := exists_prefix_of_mem_branchLeaves leaf h
      exact ⟨name', List.mem_cons_of_mem _ hname', hprefix⟩
termination_by structural _ branches => branches

end

theorem ne_nil_of_mem_leaves {branches : List (String × Json)} {leaf : List String × Json}
    (h : leaf ∈ leaves [] (.object branches)) : leaf.1 ≠ [] := by
  obtain ⟨name, -, hname⟩ := exists_prefix_of_mem_branchLeaves leaf h
  exact List.ne_nil_of_length_pos (Nat.lt_of_lt_of_le (by simp) hname.length_le)

/-- Every name has a segment. -/
theorem ne_nil_of_listing? {json : Json} {written : List (List String × Int)}
    (h : listing? json = some written) : ∀ entry ∈ written, entry.1 ≠ [] := by
  cases json with
  | array items =>
    obtain ⟨entries, -, h⟩ := Option.bind_eq_some_iff.1 h
    split at h
    · next hall =>
      obtain rfl := Option.some.inj h
      simpa using hall
    · cases h
  | object branches =>
    intro entry hentry
    obtain ⟨leaf, hmem, hleaf⟩ := exists_of_forall₂ (mapM_eq_some.1 h) hentry
    obtain rfl := listedLeaf?_eq_some.1 hleaf
    exact ne_nil_of_mem_leaves hmem
  | _ => cases h

/-- The same name, with the record of the integer. -/
def Names (written : List String × Int) (entry : List String × RecordId) : Prop :=
  entry.1 = written.1 ∧ NumberOf written.2 entry.2

/-! ### Arrays -/

theorem checkEntries_eq_ok {place : String} {index : Nat} {written : List EntryFields}
    {entries : CatalogEntries} : checkEntries place index written = .ok entries ↔
      (∀ w ∈ written, w.name ≠ []) ∧
        List.Forall₂ Names (written.map fun w => (w.name, w.type)) entries := by
  induction written generalizing index entries with
  | nil => simp [checkEntries, eq_comm]
  | cons w written ih =>
    rw [checkEntries]
    cases hname : w.name with
    | nil => simp [hname]
    | cons first rest =>
      simp only [hname, List.isEmpty_cons, Bool.false_eq_true, if_false, bind_eq_ok,
        check_eq_ok, ih, pure_eq_ok, List.forall_mem_cons, List.map_cons]
      constructor
      · rintro ⟨id, hid, rest, ⟨hnames, hrest⟩, rfl⟩
        exact ⟨⟨nofun, hnames⟩, .cons ⟨rfl, hid⟩ hrest⟩
      · rintro ⟨⟨-, hnames⟩, h⟩
        obtain _ | @⟨_, ⟨path, id⟩, _, _, ⟨hpath, hid⟩, hrest⟩ := h
        obtain rfl : path = first :: rest := hpath
        exact ⟨id, hid, _, ⟨hnames, hrest⟩, rfl⟩

theorem checkEntries_failsWith (place : String) (index : Nat) (written : List EntryFields) :
    FailsWith OfReading (checkEntries place index written) := by
  induction written generalizing index with
  | nil => exact .ok _
  | cons w written ih =>
    rw [checkEntries]
    split
    · exact .error trivial
    · exact .bind (check_failsWith _ _) fun _ => .bind (ih _) fun _ => .ok _

/-! ### Trees -/

/-- Where a leaf stands in the catalog at `place`. -/
def leafPlace (place : String) (path : List String) : String :=
  place ++ "." ++ ".".intercalate path

def readEntry (place : String) (leaf : List String × Json) :
    Except LoadError (List String × RecordId) := do
  return (leaf.1, ← readLeaf (leafPlace place leaf.1) leaf.2)

theorem sizeMembers_eq (members : List (String × Json)) :
    Json.sizeMembers members = Json.sizeItems (members.map Prod.snd) := by
  induction members with
  | nil => rfl
  | cons member members ih => rw [Json.sizeMembers, ih]; rfl

theorem sizeItems_append (items items' : List Json) :
    Json.sizeItems (items ++ items') = Json.sizeItems items + Json.sizeItems items' := by
  induction items with
  | nil => simp [Json.sizeItems]
  | cons item items ih => rw [List.cons_append, Json.sizeItems, Json.sizeItems, ih, Nat.add_assoc]

theorem size_pos (json : Json) : 0 < json.size := by
  cases json <;> simp [Json.size]

theorem leaves_leaf {path : List String} {leaf : Json} (hleaf : ∀ branches, leaf ≠ .object branches) :
    leaves path leaf = [(path, leaf)] := by
  cases leaf with
  | object branches => exact absurd rfl (hleaf branches)
  | _ => rfl

theorem branchLeaves_eq (path : List String) (branches : List (String × Json)) :
    branchLeaves path branches = forestLeaves (branches.map fun branch => (path ++ [branch.1], branch.2)) := by
  induction branches with
  | nil => rfl
  | cons branch branches ih => rw [branchLeaves, ih]; rfl

theorem readLeaf_eq_ok {place : String} {leaf : Json} {id : RecordId} :
    readLeaf place leaf = .ok id ↔ ∃ n, leaf = .number (.int n) ∧ NumberOf n id := by
  cases leaf with
  | number number => cases number <;> simp [readLeaf, check_eq_ok]
  | _ => simp [readLeaf]

theorem readLeaf_failsWith (place : String) (leaf : Json) :
    FailsWith OfReading (readLeaf place leaf) := by
  cases leaf with
  | number number =>
    cases number with
    | int n => exact check_failsWith place n
    | float _ => exact .error trivial
  | _ => exact .error trivial

/-- An entry is read from a leaf that is an integer, as its name with the record of the integer. -/
theorem readEntry_eq_ok {place : String} {leaf : List String × Json} {entry : List String × RecordId} :
    readEntry place leaf = .ok entry ↔ ∃ written, listedLeaf? leaf = some written ∧ Names written entry := by
  obtain ⟨path, json⟩ := leaf
  simp only [readEntry, bind_eq_ok, readLeaf_eq_ok, pure_eq_ok, listedLeaf?_eq_some, Names]
  constructor
  · rintro ⟨id, ⟨n, rfl, hn⟩, rfl⟩
    exact ⟨(path, n), rfl, rfl, hn⟩
  · rintro ⟨⟨_, n⟩, ⟨⟩, hpath, hn⟩
    exact ⟨entry.2, ⟨n, rfl, hn⟩, Prod.ext hpath.symm rfl⟩

theorem flatten_leaf {place : String} {budget : Nat} {path : List String} {leaf : Json}
    {trees : List (List String × Json)} (hleaf : ∀ branches, leaf ≠ .object branches) :
    flatten place (budget + 1) ((path, leaf) :: trees) =
      (readLeaf (place ++ "." ++ ".".intercalate path) leaf >>= fun id =>
        flatten place budget trees >>= fun entries => pure ((path, id) :: entries)) := by
  cases leaf with
  | object branches => exact absurd rfl (hleaf branches)
  | _ => rfl

/-- With a budget for all trees, flattening reads the leaves of one tree after the other. -/
theorem flatten_eq {place : String} {budget : Nat} {trees : List (List String × Json)}
    (hbudget : Json.sizeItems (trees.map Prod.snd) ≤ budget) :
    flatten place budget trees = (forestLeaves trees).mapM (readEntry place) := by
  induction budget generalizing trees with
  | zero =>
    cases trees with
    | nil => rfl
    | cons tree trees =>
      have hpos := size_pos tree.2
      rw [List.map_cons, Json.sizeItems] at hbudget
      omega
  | succ budget ih =>
    rcases trees with _ | ⟨⟨path, tree⟩, trees⟩
    · rfl
    have hpos := size_pos tree
    simp only [List.map_cons, Json.sizeItems] at hbudget
    have hrest : flatten place budget trees = (forestLeaves trees).mapM (readEntry place) := ih (by omega)
    have hleaf : (∀ branches, tree ≠ .object branches) → flatten place (budget + 1) ((path, tree) :: trees) =
        (forestLeaves ((path, tree) :: trees)).mapM (readEntry place) := by
      intro hleaf
      rw [flatten_leaf hleaf, forestLeaves, List.flatMap_cons, leaves_leaf hleaf, List.singleton_append,
        List.mapM_cons, readEntry, hrest]
      simp only [bind_assoc, pure_bind]
      rfl
    cases tree with
    | object branches =>
      -- a tree is replaced by its branches, which together are smaller and have the same leaves
      have hbranches : (Prod.snd ∘ fun branch : String × Json => (path ++ [branch.1], branch.2)) = Prod.snd := rfl
      simp only [Json.size, sizeMembers_eq] at hbudget
      rw [flatten, ih, forestLeaves, List.flatMap_append, ← forestLeaves, ← branchLeaves_eq]
      · rfl
      · rw [List.map_append, List.map_map, sizeItems_append, hbranches]
        omega
    | _ => exact hleaf nofun

/-- A tree is read leaf by leaf. -/
theorem read_object (place : String) (branches : List (String × Json)) : Catalog.read place (.object branches) =
    (leaves [] (.object branches)).mapM (readEntry place) := by
  have hbudget : Json.sizeItems ([(([] : List String), Json.object branches)].map Prod.snd) ≤
      (Json.object branches).size := Nat.le_refl _
  rw [Catalog.read, ofTree, flatten_eq hbudget, forestLeaves, List.flatMap_singleton]

/-! ### Catalogs -/

variable {place : String} {json : Json} {entries : CatalogEntries}

theorem ofArray_eq_ok {items : List Json} : ofArray place items = .ok entries ↔
    ∃ written, listing? (.array items) = some written ∧ List.Forall₂ Names written entries := by
  rw [ofArray, listing?]
  cases items.mapM entryLayout.read with
  | error fault => simp [Except.toOption]
  | ok written =>
    have hnames : (∀ w ∈ written, w.name ≠ []) ↔ (written.all fun w => !w.name.isEmpty) = true := by
      simp
    simp only [checkEntries_eq_ok, Except.toOption, Option.bind_eq_bind, Option.bind_some, hnames]
    by_cases hall : (written.all fun w => !w.name.isEmpty) = true
    · simp [hall]
    · simp [hall]

/-- A catalog reads as its names with the records of their integers. -/
theorem read_eq_ok : Catalog.read place json = .ok entries ↔
    ∃ written, listing? json = some written ∧ List.Forall₂ Names written entries := by
  cases json with
  | array items => exact ofArray_eq_ok
  | object branches =>
    rw [read_object, listing?, exists_mapM_eq_some_iff, mapM_eq_ok]
    simp only [readEntry_eq_ok]
  | _ => simp [Catalog.read, listing?]

theorem exists_read_iff {P : List String × RecordId → Prop} :
    (∃ entries, Catalog.read place json = .ok entries ∧ ∀ entry ∈ entries, P entry) ↔
      ∃ written, listing? json = some written ∧
        ∀ w ∈ written, ∃ id, NumberOf w.2 id ∧ P (w.1, id) := by
  have hnames : ∀ w, (∃ entry, Names w entry ∧ P entry) ↔ ∃ id, NumberOf w.2 id ∧ P (w.1, id) := by
    rintro ⟨path, n⟩
    simp [Names, and_assoc]
  simp only [read_eq_ok, ← hnames, ← exists_forall₂_iff]
  constructor
  · rintro ⟨entries, ⟨written, hwritten, hentries⟩, hP⟩
    exact ⟨written, hwritten, entries, hentries, hP⟩
  · rintro ⟨written, hwritten, entries, hentries, hP⟩
    exact ⟨entries, ⟨written, hwritten, hentries⟩, hP⟩

theorem read_failsWith (place : String) (json : Json) :
    FailsWith OfReading (Catalog.read place json) := by
  cases json with
  | array items =>
    rw [Catalog.read, ofArray]
    split
    · exact .error trivial
    · exact checkEntries_failsWith _ _ _
  | object branches =>
    rw [read_object]
    exact .mapM (fun leaf => .bind (readLeaf_failsWith _ _) fun _ => .ok _) _
  | _ => exact .error trivial

end Catalog

/-! ### Locations -/

namespace Locations

/-- The integers of locations that are well formed. -/
def numbers? (json : Json) : Option (List Int) :=
  (json.readMap (·.readMap fieldsLayout.read)).toOption.map fun files =>
    files.values.flatMap fun file => file.values.map (·.type)

theorem exists_checkFile_iff {file : String} {fields : OrderedMap String Fields} {P : RecordId → Prop} :
    (∃ entries, checkFile file fields = .ok entries ∧ ∀ entry ∈ entries, P entry.id) ↔
      ∀ n ∈ fields.values.map (·.type), ∃ id, NumberOf n id ∧ P id := by
  rw [checkFile, exists_mapM_iff, OrderedMap.values, List.forall_mem_map, List.forall_mem_map]
  refine forall₂_congr fun field _ => ?_
  simp only [bind_eq_ok, check_eq_ok, pure_eq_ok]
  constructor
  · rintro ⟨_, ⟨id, hid, rfl⟩, hP⟩
    exact ⟨id, hid, hP⟩
  · rintro ⟨id, hid, hP⟩
    exact ⟨_, ⟨id, hid, rfl⟩, hP⟩

theorem exists_read_iff (json : Json) (P : RecordId → Prop) :
    (∃ entries, Locations.read json = .ok entries ∧ ∀ entry ∈ entries, P entry.id) ↔
      ∃ numbers, numbers? json = some numbers ∧ ∀ n ∈ numbers, ∃ id, NumberOf n id ∧ P id := by
  rw [Locations.read, numbers?]
  cases json.readMap (·.readMap fieldsLayout.read) with
  | error fault => simp [Except.toOption]
  | ok files =>
    have hflat : ∀ entries : List (List LocationEntry), (∀ entry ∈ entries.flatten, P entry.id) ↔
        ∀ file ∈ entries, ∀ entry ∈ file, P entry.id := by
      simp only [List.mem_flatten]
      intro entries
      constructor
      · intro h file hfile entry hentry
        exact h entry ⟨file, hfile, hentry⟩
      · rintro h entry ⟨file, hfile, hentry⟩
        exact h file hfile entry hentry
    have hfiles := exists_mapM_iff (f := fun file : String × OrderedMap String Fields =>
      checkFile file.1 file.2) (P := fun file => ∀ entry ∈ file, P entry.id) (l := files.entries)
    simp only [exists_checkFile_iff] at hfiles
    simp only [bind_eq_ok, pure_eq_ok, Except.toOption, Option.map_some, Option.some.injEq,
      exists_eq_left', List.forall_mem_flatMap, OrderedMap.values, List.forall_mem_map] at hfiles ⊢
    rw [← hfiles]
    constructor
    · rintro ⟨_, ⟨entries, hentries, rfl⟩, hP⟩
      exact ⟨entries, hentries, (hflat entries).1 hP⟩
    · rintro ⟨entries, hentries, hP⟩
      exact ⟨_, ⟨entries, hentries, rfl⟩, (hflat entries).2 hP⟩

theorem read_failsWith (json : Json) : FailsWith OfReading (Locations.read json) := by
  rw [Locations.read]
  split
  · exact .error trivial
  · refine .bind (.mapM ?_ _) fun _ => .ok _
    rintro ⟨file, entries⟩
    refine .mapM ?_ _
    rintro ⟨key, fields⟩
    exact .bind (check_failsWith _ _) fun _ => .ok _

end Locations

end TypeEnv
