import TypeEnv.Proofs.Environment.Listings
import TypeEnv.Proofs.Report.DottedNames

/-! Looking up types by their dotted names. A dotted name stands for the path of its pieces, and answers
with the record that this path is written with last; the name that a path is printed with answers for
this path and for no other, unless a segment holds a dot. -/

namespace TypeEnv

namespace NameTable

/-- Paths are compared segment by segment, and are the same when they are equal. -/
theorem samePath_iff {path key : List String} : samePath path key = true ↔ path = key := by
  induction path generalizing key with
  | nil => cases key <;> simp [samePath]
  | cons segment path ih =>
    cases key with
    | nil => simp [samePath]
    | cons segment' key =>
      simp only [samePath, List.length_cons, List.zip_cons_cons, List.all_cons, Bool.and_eq_true, beq_iff_eq,
        Nat.add_right_cancel_iff, List.cons.injEq] at ih ⊢
      rw [← ih, and_left_comm]

/-- The look-up of a path is that of the map with paths as keys. -/
theorem find?_eq_get? (table : NameTable) (path : List String) : table.find? path = table.get? path := by
  have hsame : ∀ entry : List String × TypeId, samePath path entry.1 = decide (entry.1 = path) := by
    intro entry
    rw [Bool.eq_iff_iff, samePath_iff, decide_eq_true_iff, eq_comm]
  simp only [find?, OrderedMap.get?, hsame]

end NameTable

namespace Environment

/-- How the types of an environment answer to dotted names, told by the types that are written. -/
structure AnswersNames (environment : Environment) (written : List (List String × Int)) : Prop where
  /-- Each path is listed once, where it is written first, with the node of the record that it is written
  with last. -/
  tableOf : Catalog.TableOf environment.graph.Numbered written environment.types
  /-- A text has the node of the last record that is written with its pieces, if there is any. -/
  lookup? : ∀ text, Option.Rel environment.graph.Numbered (written.reverse.lookup (splitName text))
    (environment.lookup? (splitName text))
  /-- The pieces of a text hold no dots and, joined by dots, give it back. -/
  pieces_iff : ∀ text pieces, splitName text = pieces ↔
    pieces ≠ [] ∧ DotFree pieces ∧ dottedName pieces = text
  /-- What is printed for a path without dots in it starts with a name that answers with its node. -/
  printed : ∀ (i : Nat) path t, environment.types.entries[i]? = some (path, t) → DotFree path →
    (environment.types.lines environment.graph)[i]? =
        some (dottedName path ++ "\t" ++ environment.graph.tagAt t ++ s!"\t#{t.val}") ∧
      environment.lookup? (splitName (dottedName path)) = some t
  /-- Paths without dots in them are not printed alike. -/
  dottedName_inj : ∀ path ∈ environment.types.keys, ∀ path' ∈ environment.types.keys, DotFree path →
    DotFree path' → dottedName path = dottedName path' → path = path'

theorem Lists.ne_nil_of_mem_types {environment : Environment} {R : Int → TypeId → Prop} {json : Json}
    {c : Document.Canonical} (h : environment.Lists R c) (hc : Document.canonical? json = some c)
    {path : List String} (hpath : path ∈ environment.types.keys) : path ≠ [] := by
  obtain ⟨_, -, -, -, htypes, -⟩ := Document.canonical?_eq_some.1 hc
  rw [h.types.keys_eq, List.mem_eraseDups] at hpath
  obtain ⟨entry, hentry, rfl⟩ := List.mem_map.1 hpath
  exact Catalog.ne_nil_of_readField? htypes entry hentry

/-- Every type that is loaded answers to its name. -/
theorem answersNames_of_ofJson (options : LoadOptions) (json : Json) (environment : Environment)
    (h : ofJson options json = .ok environment) :
    ∃ c, Document.canonical? json = some c ∧ environment.AnswersNames c.types := by
  obtain ⟨c, hc, hlists⟩ := exists_lists_of_ofJson h
  have hsplit : ∀ path ∈ environment.types.keys, DotFree path → splitName (dottedName path) = path :=
    fun path hmem hpath => splitName_dottedName (hlists.ne_nil_of_mem_types hc hmem) hpath
  refine ⟨c, hc, {
    tableOf := hlists.types
    lookup? := fun text => by
      rw [Environment.lookup?, NameTable.find?_eq_get?]
      exact hlists.types.get? (splitName text)
    pieces_iff := fun text pieces => splitName_eq_iff
    printed := fun i path t hi hpath => ?_
    dottedName_inj := fun path hmem path' hmem' hpath hpath' heq => ?_ }⟩
  · have hentry := List.mem_of_getElem? hi
    refine ⟨?_, ?_⟩
    · rw [NameTable.lines, List.getElem?_map, hi]
      rfl
    · rw [hsplit path (List.mem_map_of_mem hentry) hpath]
      exact (NameTable.find?_eq_get? _ _).trans (OrderedMap.mem_entries_iff.1 hentry)
  · rw [← hsplit path hmem hpath, ← hsplit path' hmem' hpath', heq]

/-- A path that is written twice, one with a dot in a segment, one of empty segments, and one that runs the
segments of another together. -/
def namesJson : Json :=
  .object [("globals", .object []),
    ("types", .array [Catalog.entryJson 1 ["A", "B"], Catalog.entryJson 1 ["AB"],
      Catalog.entryJson 1 ["A.B"], Catalog.entryJson 0 ["A", "B"], Catalog.entryJson 2 ["", ""]]),
    ("data", .array [.object [("kind", .string "Any")], .object [("kind", .string "Never")],
      .object [("kind", .string "Void")]])]

theorem answersNames_namesJson : ∃ environment, ofJson {} namesJson = .ok environment ∧
    ∃ c, Document.canonical? namesJson = some c ∧ environment.AnswersNames c.types := by
  obtain ⟨environment, h, -⟩ := Reading.exists_ok_of_any (x := ofJson {} namesJson)
    (P := fun _ => True) (by decide +kernel)
  exact ⟨environment, h, answersNames_of_ofJson {} namesJson environment h⟩

/-- Of the two paths that are printed as `A.B`, the one of two segments answers. -/
example : ((ofJson {} namesJson).toOption.map fun environment =>
    (environment.types.lines environment.graph,
      ["A.B", "AB", ".", "A."].map fun text => environment.lookup? (splitName text))) =
    some (["A.B\tAny\t#0", "AB\tNever\t#1", "A.B\tNever\t#1", ".\tVoid\t#2"],
      [some ⟨0⟩, some ⟨1⟩, some ⟨2⟩, none]) := by
  decide +kernel

end Environment

end TypeEnv

