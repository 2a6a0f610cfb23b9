import TypeEnv.Report

/-! Dotted names. A name is the list of its segments with dots in between, and splitting it at its dots
gives the segments back as long as they hold no dots themselves. So a dotted name is one and the same
as the list of its pieces, and two names whose segments hold no dots are never written alike. -/

namespace TypeEnv

/-- The segments of a name with dots in between, as it is printed. -/
def dottedName (path : List String) : String := ".".intercalate path

/-- No segment of the name holds a dot. -/
def DotFree (path : List String) : Prop := ∀ segment ∈ path, '.' ∉ segment.toList

instance (path : List String) : Decidable (DotFree path) :=
  inferInstanceAs (Decidable (∀ segment ∈ path, '.' ∉ segment.toList))

/-- What stands between two separators holds none. -/
theorem not_mem_of_mem_splitOn {α : Type} [BEq α] [LawfulBEq α] {separator : α} {l piece : List α}
    (h : piece ∈ l.splitOn separator) : separator ∉ piece := by
  induction l generalizing piece with
  | nil =>
    rw [List.splitOn_nil, List.mem_singleton] at h
    exact h ▸ List.not_mem_nil
  | cons a l ih =>
    rw [List.splitOn_cons_eq_if_modifyHead] at h
    split at h
    · rcases List.mem_cons.1 h with rfl | h
      · exact List.not_mem_nil
      · exact ih h
    · next hne =>
      obtain ⟨first, rest, hsplit⟩ := List.exists_cons_of_ne_nil (List.splitOn_ne_nil separator l)
      rw [hsplit, List.modifyHead_cons] at h
      rcases List.mem_cons.1 h with rfl | h
      · rw [List.mem_cons, not_or]
        refine ⟨fun heq => hne (by simp [heq]), ih (hsplit ▸ List.mem_cons_self)⟩
      · exact ih (hsplit ▸ List.mem_cons_of_mem _ h)

theorem splitName_ne_nil (text : String) : splitName text ≠ [] := by
  simp [splitName]

theorem dotFree_splitName (text : String) : DotFree (splitName text) := by
  intro segment h
  obtain ⟨piece, hpiece, rfl⟩ := List.mem_map.1 h
  rw [String.toList_ofList]
  exact not_mem_of_mem_splitOn hpiece

/-- The pieces of a text, joined, are the text. -/
theorem dottedName_splitName (text : String) : dottedName (splitName text) = text := by
  apply String.toList_inj.1
  have hpieces : (splitName text).map String.toList = text.toList.splitOn '.' := by
    simp [splitName, Function.comp_def]
  rw [dottedName, String.toList_intercalate, hpieces]
  exact List.intercalate_splitOn '.'

/-- A name whose segments hold no dots is split into its segments. -/
theorem splitName_dottedName {path : List String} (hne : path ≠ []) (hpath : DotFree path) :
    splitName (dottedName path) = path := by
  have hsplit : (List.intercalate ['.'] (path.map String.toList)).splitOn '.' = path.map String.toList :=
    List.splitOn_intercalate '.' (by simpa [DotFree] using hpath) (by simpa using hne)
  rw [splitName, dottedName, String.toList_intercalate]
  change ((List.intercalate ['.'] (path.map String.toList)).splitOn '.').map String.ofList = path
  rw [hsplit, List.map_map]
  simp [Function.comp_def]

/-- A segment with a dot in it is taken apart. -/
example : ¬ DotFree ["A.B"] ∧ splitName (dottedName ["A.B"]) = ["A", "B"] := by decide +kernel

/-- The pieces between the dots of a text are those that hold no dots and, joined by dots, give the
text. -/
theorem splitName_eq_iff {text : String} {pieces : List String} :
    splitName text = pieces ↔ pieces ≠ [] ∧ DotFree pieces ∧ dottedName pieces = text := by
  constructor
  · rintro rfl
    exact ⟨splitName_ne_nil text, dotFree_splitName text, dottedName_splitName text⟩
  · rintro ⟨hne, hpieces, rfl⟩
    exact splitName_dottedName hne hpieces

end TypeEnv
