import TypeEnv.Proofs.Document.CanonicalForm
import TypeEnv.Proofs.Json.Names
import Mathlib.Data.List.Pairwise

/-! Catalogs that are written as trees. Flattening a tree with a list of what is yet to be looked at does
what going down the tree does: it reads the leaves from left to right, stops at the first that is not the
number of a record, and otherwise returns an entry for each. The same leaves written as an array make the
same catalog. -/

namespace TypeEnv

namespace Catalog

open Reading LoadError

/-! ### Leaves -/

mutual

/-- The entries of a tree, read on the way down. -/
def gather (place : String) : List String → Json → Except LoadError CatalogEntries
  | path, .object branches => gatherBranches place path branches
  | path, leaf => do return [← readEntry place (path, leaf)]
termination_by structural _ tree => tree

def gatherBranches (place : String) :
    List String → List (String × Json) → Except LoadError CatalogEntries
  | _, [] => return []
  | path, (name, tree) :: branches => do
    let first ← gather place (path ++ [name]) tree
    return first ++ (← gatherBranches place path branches)
termination_by structural _ branches => branches

end

section Leaves

variable {path : List String} {leaf : Json}

theorem gather_leaf {place : String} (hleaf : ∀ branches, leaf ≠ .object branches) :
    gather place path leaf = [(path, leaf)].mapM (readEntry place) := by
  rw [List.mapM_cons]
  cases leaf with
  | object branches => exact absurd rfl (hleaf branches)
  | _ => rfl

mutual

/-- Going down a tree reads its leaves. -/
theorem gather_eq (place : String) : ∀ (path : List String) (tree : Json),
    gather place path tree = (leaves path tree).mapM (readEntry place)
  | path, .object branches => gatherBranches_eq place path branches
  | _, .null | _, .bool _ | _, .number _ | _, .string _ | _, .array _ => gather_leaf nofun
termination_by structural _ tree => tree

theorem gatherBranches_eq (place : String) : ∀ (path : List String) (branches : List (String × Json)),
    gatherBranches place path branches = (branchLeaves path branches).mapM (readEntry place)
  | _, [] => rfl
  | path, (name, tree) :: branches => by
    rw [gatherBranches, branchLeaves, List.mapM_append, gather_eq place (path ++ [name]) tree,
      gatherBranches_eq place path branches]
termination_by structural _ branches => branches

end

end Leaves

/-! ### Paths -/

theorem name_eq_of_prefixes {path path' : List String} {name name' : String} (h : path ++ [name] <+: path')
    (h' : path ++ [name'] <+: path') : name = name' := by
  have hlength : (path ++ [name]).length = (path ++ [name']).length := by simp
  have heq := (List.prefix_of_prefix_length_le h h' (Nat.le_of_eq hlength)).eq_of_length hlength
  simpa using heq

mutual

/-- Where names differ, so do the paths of the leaves. -/
theorem nodup_leaves : ∀ (path : List String) {tree : Json}, tree.NamesDiffer →
    ((leaves path tree).map Prod.fst).Nodup
  | path, .object _, h => nodup_branchLeaves path h.1 h.2
  | _, .null, _ | _, .bool _, _ | _, .number _, _ | _, .string _, _ | _, .array _, _ => List.nodup_singleton _
termination_by structural _ tree => tree

theorem nodup_branchLeaves : ∀ (path : List String) {branches : List (String × Json)},
    (branches.map Prod.fst).Nodup → Json.MembersDiffer branches →
      ((branchLeaves path branches).map Prod.fst).Nodup
  | _, [], _, _ => List.nodup_nil
  | path, (name, tree) :: branches, hnames, h => by
    obtain ⟨hname, hnames⟩ := List.nodup_cons.1 hnames
    rw [branchLeaves, List.map_append, List.nodup_append]
    refine ⟨nodup_leaves _ h.1, nodup_branchLeaves path hnames h.2, ?_⟩
    rintro _ hpath _ hpath' rfl
    obtain ⟨leaf, hleaf, rfl⟩ := List.mem_map.1 hpath
    obtain ⟨leaf', hleaf', heq⟩ := List.mem_map.1 hpath'
    obtain ⟨name', hname', hprefix⟩ := exists_prefix_of_mem_branchLeaves leaf' hleaf'
    rw [heq] at hprefix
    exact hname (name_eq_of_prefixes (prefix_of_mem_leaves leaf hleaf) hprefix ▸ hname')
termination_by structural _ branches => branches

end

/-! ### Numbers -/

/-- The leaf is the number of a record. -/
def IsNumber (leaf : Json) : Prop := ∃ n : Nat, n < 0x100000000 ∧ leaf = .number (.int n)

/-- An entry as a leaf. -/
def leafOf (entry : List String × RecordId) : List String × Json :=
  (entry.1, .number (.int entry.2.val.toNat))

/-- What is wrong with a leaf that is not the number of a record. -/
def leafDefect : Json → Defect
  | .number number => .notAnId number
  | _ => .leafNotAnId

theorem readLeaf_eq_ok_iff {place : String} {leaf : Json} {id : RecordId} :
    readLeaf place leaf = .ok id ↔ leaf = .number (.int id.val.toNat) := by
  simp only [readLeaf_eq_ok, RecordId.numberOf_iff, exists_eq_right]

theorem isNumber_iff {leaf : Json} : IsNumber leaf ↔ ∃ id : RecordId, leaf = .number (.int id.val.toNat) := by
  constructor
  · rintro ⟨n, hn, rfl⟩
    exact ⟨⟨n.toUInt32⟩, by rw [toNat_toUInt32 hn]⟩
  · rintro ⟨id, rfl⟩
    exact ⟨_, id.val.toNat_lt, rfl⟩

theorem readLeaf_eq_error {place : String} {leaf : Json} (h : ¬ IsNumber leaf) :
    readLeaf place leaf = .error (.malformed place (leafDefect leaf)) := by
  cases leaf with
  | number number =>
    cases number with
    | int n =>
      rw [readLeaf, RecordId.check]
      split
      · next id hid => exact absurd (isNumber_iff.2 ⟨id, by rw [RecordId.numberOf_iff.1 hid]⟩) h
      · rfl
    | float value => rfl
  | _ => rfl

theorem mapM_readEntry_eq_ok {place : String} {written : List (List String × Json)} {entries : CatalogEntries} :
    written.mapM (readEntry place) = .ok entries ↔ written = entries.map leafOf := by
  have hentry : ∀ (leaf : List String × Json) (entry : List String × RecordId),
      readEntry place leaf = .ok entry ↔ leaf = leafOf entry := by
    rintro ⟨path, leaf⟩ ⟨path', id⟩
    simp [readEntry, bind_eq_ok, readLeaf_eq_ok_iff, leafOf, and_comm]
  have hmap := forall₂_eq_map_iff (f := leafOf) (P := fun _ => True) (l := written) (r := entries)
  simp only [and_true, implies_true] at hmap
  simp only [mapM_eq_ok, hentry, hmap]

theorem mapM_readEntry_eq_error {place : String} {before after : List (List String × Json)} {path : List String}
    {leaf : Json} (hbefore : ∀ good ∈ before, IsNumber good.2) (hleaf : ¬ IsNumber leaf) :
    (before ++ (path, leaf) :: after).mapM (readEntry place) =
      .error (.malformed (leafPlace place path) (leafDefect leaf)) := by
  induction before with
  | nil =>
    rw [List.nil_append, List.mapM_cons, readEntry, readLeaf_eq_error hleaf]
    rfl
  | cons good before ih =>
    obtain ⟨hgood, hbefore⟩ := List.forall_mem_cons.1 hbefore
    obtain ⟨id, hid⟩ := isNumber_iff.1 hgood
    rw [List.cons_append, List.mapM_cons, ih hbefore, readEntry, readLeaf_eq_ok_iff.2 hid]
    rfl

theorem exists_eq_map_leafOf {written : List (List String × Json)} (h : ∀ leaf ∈ written, IsNumber leaf.2) :
    ∃ entries : CatalogEntries, written = entries.map leafOf := by
  induction written with
  | nil => exact ⟨[], rfl⟩
  | cons leaf written ih =>
    obtain ⟨hleaf, h⟩ := List.forall_mem_cons.1 h
    obtain ⟨id, hid⟩ := isNumber_iff.1 hleaf
    obtain ⟨entries, rfl⟩ := ih h
    exact ⟨(leaf.1, id) :: entries, by rw [List.map_cons, leafOf, ← hid]⟩

open Classical in
/-- Where some leaf is not a number, there is a first. -/
theorem exists_first_bad {written : List (List String × Json)} (h : ¬ ∀ leaf ∈ written, IsNumber leaf.2) :
    ∃ before path leaf after, written = before ++ (path, leaf) :: after ∧
      (∀ good ∈ before, IsNumber good.2) ∧ ¬ IsNumber leaf := by
  obtain ⟨bad, hmem, hbad⟩ : ∃ leaf ∈ written, ¬ IsNumber leaf.2 := by simpa using h
  have hfind : (written.find? fun leaf => !decide (IsNumber leaf.2)).isSome :=
    List.find?_isSome.2 ⟨bad, hmem, by simpa using hbad⟩
  obtain ⟨⟨path, leaf⟩, hfirst⟩ := Option.isSome_iff_exists.1 hfind
  obtain ⟨hleaf, before, after, hsplit, hbefore⟩ := List.find?_eq_some_iff_append.1 hfirst
  exact ⟨before, path, leaf, after, hsplit, fun good hgood => by simpa using hbefore good hgood,
    by simpa using hleaf⟩

/-! ### Arrays -/

/-- A leaf as an entry of an array. -/
def entryOfLeaf (leaf : List String × Json) : Json :=
  .object [("type", leaf.2), ("qName", .array (leaf.1.map .string))]

theorem readList_text (path : List String) : (Json.array (path.map .string)).readList Json.readText = .ok path := by
  refine mapM_eq_ok.2 ?_
  rw [List.forall₂_map_left_iff, List.forall₂_same]
  exact fun _ _ => rfl

theorem read_entryOfLeaf (leaf : List String × Json) :
    entryLayout.read (entryOfLeaf leaf) = (fun n => ⟨n, leaf.1⟩) <$> leaf.2.readInt64 := by
  have htype : entryLayout.field? "type" = some (.needed "type" Json.readInt64 fun type e => { e with type }) := rfl
  have hname : entryLayout.field? "qName" =
    some (.needed "qName" (·.readList Json.readText) fun name e => { e with name }) := rfl
  have hmissing : entryLayout.missing? ["type", "qName"] = none := rfl
  simp only [entryOfLeaf, Layout.read, Layout.ofMembers, Layout.readMembers, htype, hname, Field.needed,
    Field.optional, readList_text, List.map_cons, List.map_nil, hmissing]
  cases leaf.2.readInt64 <;> rfl

theorem ofArray_entriesOfLeaves {place : String} {written : List (List String × Json)}
    (hpaths : ∀ leaf ∈ written, leaf.1 ≠ []) {entries : CatalogEntries} :
    ofArray place (written.map entryOfLeaf) = .ok entries ↔ written = entries.map leafOf := by
  have hread : ∀ fields : List EntryFields, (written.map entryOfLeaf).mapM entryLayout.read = .ok fields ↔
      List.Forall₂ (fun leaf e => (fun n => (⟨n, leaf.1⟩ : EntryFields)) <$> leaf.2.readInt64 = .ok e)
        written fields := by
    intro fields
    rw [mapM_eq_ok, List.forall₂_map_left_iff]
    simp only [read_entryOfLeaf]
  constructor
  · intro h
    rw [ofArray] at h
    cases hfields : (written.map entryOfLeaf).mapM entryLayout.read with
    | error fault => simp [hfields] at h
    | ok fields =>
      simp only [hfields] at h
      have hnames := (checkEntries_eq_ok.1 h).2
      rw [List.forall₂_map_left_iff] at hnames
      rw [← List.map_id written]
      refine map_eq_of_forall₂ (forall₂_trans ?_ ((hread fields).1 hfields) hnames)
      rintro ⟨path, leaf⟩ _ entry hleaf ⟨hpath, hn⟩
      obtain ⟨n, hn', rfl⟩ := map_eq_ok.1 hleaf
      dsimp only at hpath hn hn'
      rw [id, leafOf, hpath, ← RecordId.numberOf_iff.1 hn, (Json.readInt64_eq_ok.1 hn').1]
  · rintro rfl
    have hfields := (hread (entries.map fun entry => ⟨entry.2.val.toNat, entry.1⟩)).2 (by
      rw [List.forall₂_map_left_iff, List.forall₂_map_right_iff, List.forall₂_same]
      intro entry _
      have hlt := entry.2.val.toNat_lt
      have hint : HasInt64 entry.2.val.toNat := ⟨by omega, by omega⟩
      exact map_eq_ok.2 ⟨_, Json.readInt64_eq_ok.2 ⟨rfl, hint⟩, rfl⟩)
    simp only [ofArray, hfields]
    refine checkEntries_eq_ok.2 ⟨?_, ?_⟩
    · rw [List.forall_mem_map] at hpaths ⊢
      exact hpaths
    · rw [List.map_map, List.forall₂_map_left_iff, List.forall₂_same]
      exact fun entry _ => ⟨rfl, RecordId.numberOf_iff.2 rfl⟩

/-! ### Catalogs -/

/-- What is read from a tree at `place`, told by its leaves. -/
structure ReadsTree (place : String) (branches : List (String × Json)) : Prop where
  /-- As many steps as the tree has values are enough, and more change nothing. -/
  flatten_eq : ∀ budget, (Json.object branches).size ≤ budget →
    flatten place budget [([], .object branches)] = gather place [] (.object branches)
  read_eq : Catalog.read place (.object branches) = gather place [] (.object branches)
  ne_nil : ∀ leaf ∈ leaves [] (.object branches), leaf.1 ≠ []
  nodup : ((leaves [] (.object branches)).map Prod.fst).Nodup
  /-- Where all leaves are numbers, there is an entry for each and no other. -/
  accepts : (∀ leaf ∈ leaves [] (.object branches), IsNumber leaf.2) → ∃ entries,
    Catalog.read place (.object branches) = .ok entries ∧ leaves [] (.object branches) = entries.map leafOf
  /-- Otherwise the first leaf that is none is reported at its path. -/
  refuses : (¬ ∀ leaf ∈ leaves [] (.object branches), IsNumber leaf.2) → ∃ before path leaf after,
    leaves [] (.object branches) = before ++ (path, leaf) :: after ∧
      (∀ good ∈ before, IsNumber good.2) ∧ ¬ IsNumber leaf ∧
      Catalog.read place (.object branches) =
        .error (.malformed (place ++ "." ++ ".".intercalate path) (leafDefect leaf))
  /-- An empty branch, at any depth, makes no difference. -/
  pruned : ∀ tree, Pruned (.object branches) tree → Catalog.read place tree = Catalog.read place (.object branches)
  /-- The array that lists the leaves reads as the same entries, and is refused where the tree is. -/
  array : ∀ place', (Catalog.read place' (.array ((leaves [] (.object branches)).map entryOfLeaf))).toOption =
    (Catalog.read place (.object branches)).toOption

/-- A tree is read leaf by leaf, and as the array of its leaves is. -/
theorem readsTree_of_namesDiffer (place : String) (branches : List (String × Json))
    (h : (Json.object branches).NamesDiffer) : ReadsTree place branches := by
  have hpaths : ∀ leaf ∈ leaves [] (.object branches), leaf.1 ≠ [] := fun _ => ne_nil_of_mem_leaves
  exact {
    flatten_eq := fun budget hbudget => by
      rw [Catalog.flatten_eq hbudget, gather_eq, forestLeaves, List.flatMap_singleton]
    read_eq := by rw [read_object, gather_eq]
    ne_nil := hpaths
    nodup := nodup_leaves [] h
    accepts := fun hgood => by
      obtain ⟨entries, hentries⟩ := exists_eq_map_leafOf hgood
      exact ⟨entries, by rw [read_object, mapM_readEntry_eq_ok, hentries], hentries⟩
    refuses := fun hbad => by
      obtain ⟨before, path, leaf, after, hsplit, hbefore, hleaf⟩ := exists_first_bad hbad
      refine ⟨before, path, leaf, after, hsplit, hbefore, hleaf, ?_⟩
      rw [read_object, hsplit, mapM_readEntry_eq_error hbefore hleaf, leafPlace]
    pruned := fun tree hpruned => by
      cases hpruned with
      | here before after name => rw [read_object, read_object, (Pruned.here before after name).leaves_eq]
      | inside before after name hpruned =>
        rw [read_object, read_object, (Pruned.inside before after name hpruned).leaves_eq]
    array := fun place' => by
      refine Option.ext fun entries => ?_
      rw [toOption_eq_some, toOption_eq_some, read_object, mapM_readEntry_eq_ok, Catalog.read]
      exact ofArray_entriesOfLeaves hpaths }

/-- Leaves at several depths, and branches without any. -/
def nestedBranches : List (String × Json) :=
  [("A", .object [("B", .number (.int 2)), ("C", .object []), ("D", .object [("E", .number (.int 0))])]),
    ("F", .number (.int 4294967295)), ("G", .object [("H", .object [])])]

theorem readsTree_nestedBranches : (Json.object nestedBranches).NamesDiffer ∧ ReadsTree "types" nestedBranches := by
  have hnames : (Json.object nestedBranches).NamesDiffer := by
    simp [nestedBranches, Json.NamesDiffer, Json.MembersDiffer]
  exact ⟨hnames, readsTree_of_namesDiffer "types" nestedBranches hnames⟩

/-- An entry for each leaf, in the order of the document. -/
example : (Catalog.read "types" (.object nestedBranches)).toOption =
    some [(["A", "B"], ⟨2⟩), (["A", "D", "E"], ⟨0⟩), (["F"], ⟨4294967295⟩)] := by
  decide +kernel

/-- Of two leaves that are no numbers of records the first is reported, at its path. -/
example : (match Catalog.read "types" (.object (nestedBranches ++
      [("X", .object [("Y", .number (.int 4294967296))]), ("Z", .null)])) with
    | .error error => error.message
    | .ok _ => "") = "malformed spec at types.X.Y: `4294967296` is not a valid type id" := by
  decide +kernel

end Catalog

end TypeEnv
