import TypeEnv.OrderedMap
import Mathlib.Data.List.Induction

/-! What ordered maps hold after insertions: no value but those inserted, and each key where it was
inserted first. -/

namespace TypeEnv.OrderedMap

variable {κ α : Type} [DecidableEq κ]

theorem mem_values_of_get? {m : OrderedMap κ α} {key : κ} {value : α}
    (h : m.get? key = some value) : value ∈ m.values := by
  simp only [get?, Option.map_eq_some_iff] at h
  obtain ⟨entry, hentry, rfl⟩ := h
  exact List.mem_map_of_mem (List.mem_of_find?_eq_some hentry)

theorem mem_values_insertEntry {key : κ} {new value : α} {entries : List (κ × α)}
    (h : value ∈ (insertEntry key new entries).map Prod.snd) :
    value = new ∨ value ∈ entries.map Prod.snd := by
  induction entries with
  | nil => exact .inl (by simpa [insertEntry] using h)
  | cons entry entries ih =>
    rw [insertEntry] at h
    split at h
    · rcases List.mem_cons.1 h with rfl | h
      · exact .inl rfl
      · exact .inr (List.mem_cons_of_mem _ h)
    · rcases List.mem_cons.1 h with rfl | h
      · exact .inr List.mem_cons_self
      · exact (ih h).imp_right (List.mem_cons_of_mem _)

theorem mem_values_insert {m : OrderedMap κ α} {key : κ} {new value : α}
    (h : value ∈ (m.insert key new).values) : value = new ∨ value ∈ m.values :=
  mem_values_insertEntry h

theorem mem_values_ofList {entries : List (κ × α)} {value : α} (h : value ∈ (ofList entries).values) :
    value ∈ entries.map Prod.snd := by
  have hfold : ∀ m : OrderedMap κ α,
      value ∈ (entries.foldl (fun m entry => m.insert entry.1 entry.2) m).values →
        value ∈ m.values ∨ value ∈ entries.map Prod.snd := by
    clear h
    induction entries with
    | nil => exact fun m h => .inl h
    | cons entry entries ih =>
      intro m h
      rcases ih _ h with h | h
      · rcases mem_values_insert h with rfl | h
        · exact .inr List.mem_cons_self
        · exact .inl h
      · exact .inr (List.mem_cons_of_mem _ h)
  exact (hfold ∅ h).resolve_left (by simp [values, EmptyCollection.emptyCollection, empty])

theorem find?_keys_insert (m : OrderedMap κ α) (key : κ) (value : α) (p : κ → Bool) :
    (m.insert key value).keys.find? p = (m.keys ++ [key]).find? p := by
  rw [keys_insert]
  split
  · next hmem =>
    rw [List.find?_append]
    cases hfind : m.keys.find? p with
    | some _ => rfl
    | none => simp [List.find?_eq_none.1 hfind key hmem]
  · rfl

theorem find?_keys_ofList (entries : List (κ × α)) (p : κ → Bool) :
    (ofList entries).keys.find? p = (entries.map Prod.fst).find? p := by
  have hfold : ∀ m : OrderedMap κ α,
      (entries.foldl (fun m entry => m.insert entry.1 entry.2) m).keys.find? p =
        (m.keys ++ entries.map Prod.fst).find? p := by
    induction entries with
    | nil => simp
    | cons entry entries ih =>
      intro m
      rw [List.foldl_cons, ih, List.find?_append, find?_keys_insert, ← List.find?_append]
      simp
  exact hfold ∅

/-! ### Lists that repeat keys -/

theorem ofList_concat (entries : List (κ × α)) (entry : κ × α) :
    ofList (entries ++ [entry]) = (ofList entries).insert entry.1 entry.2 := by
  rw [ofList, List.foldl_append]
  rfl

theorem mem_entries_iff {m : OrderedMap κ α} {key : κ} {value : α} :
    (key, value) ∈ m.entries ↔ m.get? key = some value := by
  rw [get?, Option.map_eq_some_iff]
  constructor
  · intro h
    refine ⟨(key, value), ?_, rfl⟩
    have hnodup := m.nodup_keys
    revert h hnodup
    induction m.entries with
    | nil => exact fun h => absurd h List.not_mem_nil
    | cons entry entries ih =>
      intro h hnodup
      rw [List.map_cons, List.nodup_cons] at hnodup
      rcases List.mem_cons.1 h with rfl | h
      · simp
      · have hne : entry.1 ≠ key := fun heq => hnodup.1 (heq ▸ List.mem_map_of_mem h)
        rw [List.find?_cons_of_neg (by simpa using hne)]
        exact ih h hnodup.2
  · rintro ⟨⟨key', value'⟩, hfind, rfl⟩
    have hkey : key' = key := by simpa using List.find?_some hfind
    exact hkey ▸ List.mem_of_find?_eq_some hfind

section Repeated

variable [BEq κ] [LawfulBEq κ]

/-- A key has the value that it was given last. -/
theorem get?_ofList (entries : List (κ × α)) (key : κ) :
    (ofList entries).get? key = entries.reverse.lookup key := by
  induction entries using List.reverseRecOn with
  | nil => rfl
  | append_singleton entries entry ih =>
    rw [ofList_concat, get?_insert, List.reverse_append, List.reverse_singleton, List.singleton_append,
      List.lookup_cons, ih]
    by_cases h : entry.1 = key
    · simp [h]
    · simp [h, beq_eq_false_iff_ne.2 (Ne.symm h)]

omit [DecidableEq κ] in
theorem eraseDups_concat (keys : List κ) (key : κ) :
    (keys ++ [key]).eraseDups = if key ∈ keys then keys.eraseDups else keys.eraseDups ++ [key] := by
  rw [List.eraseDups_append]
  by_cases h : key ∈ keys
  · simp [h, List.removeAll]
  · simp [h, List.removeAll, List.eraseDups_cons]

/-- Keys come in the order in which they were given first. -/
theorem keys_ofList (entries : List (κ × α)) :
    (ofList entries).keys = (entries.map Prod.fst).eraseDups := by
  induction entries using List.reverseRecOn with
  | nil => rfl
  | append_singleton entries entry ih =>
    rw [ofList_concat, keys_insert, ih, List.map_append, List.map_singleton, eraseDups_concat]
    simp only [List.mem_eraseDups]

end Repeated

theorem insertEntry_of_not_mem {key : κ} {value : α} {entries : List (κ × α)}
    (h : key ∉ entries.map Prod.fst) : insertEntry key value entries = entries ++ [(key, value)] := by
  induction entries with
  | nil => rfl
  | cons entry entries ih =>
    rw [List.map_cons, List.mem_cons, not_or] at h
    rw [insertEntry, if_neg (Ne.symm h.1), ih h.2, List.cons_append]

theorem entries_insert_of_not_mem {m : OrderedMap κ α} {key : κ} (h : key ∉ m.keys) (value : α) :
    (m.insert key value).entries = m.entries ++ [(key, value)] :=
  insertEntry_of_not_mem h

/-- The last key stays the last with another value. -/
theorem entries_insert_of_concat {m : OrderedMap κ α} {key : κ} {before : List (κ × α)} {value : α}
    (h : m.entries = before ++ [(key, value)]) (value' : α) :
    (m.insert key value').entries = before ++ [(key, value')] := by
  have hkey : key ∉ before.map Prod.fst := by
    have hnodup := m.nodup_keys
    rw [h, List.map_append, List.map_singleton, List.nodup_append] at hnodup
    exact fun hmem => hnodup.2.2 _ hmem _ (List.mem_singleton_self _) rfl
  change insertEntry key value' m.entries = _
  rw [h]
  clear h
  induction before with
  | nil => simp [insertEntry]
  | cons entry before ih =>
    rw [List.map_cons, List.mem_cons, not_or] at hkey
    rw [List.cons_append, insertEntry, if_neg (Ne.symm hkey.1), ih hkey.2, List.cons_append]

/-- A list that repeats no key is kept as it is. -/
theorem entries_ofList {entries : List (κ × α)} (h : (entries.map Prod.fst).Nodup) :
    (ofList entries).entries = entries := by
  induction entries using List.reverseRecOn with
  | nil => rfl
  | append_singleton entries entry ih =>
    rw [List.map_append, List.map_singleton, List.nodup_append] at h
    have hnew : entry.1 ∉ entries.map Prod.fst := fun hmem =>
      h.2.2 _ hmem _ (List.mem_singleton_self _) rfl
    rw [ofList_concat]
    change insertEntry entry.1 entry.2 (ofList entries).entries = _
    rw [ih h.1, insertEntry_of_not_mem hnew]

/-- A map is made again of its entries. -/
theorem ofList_entries (m : OrderedMap κ α) : ofList m.entries = m := by
  obtain ⟨entries, hnodup⟩ := m
  rw [OrderedMap.mk.injEq]
  exact entries_ofList hnodup

end TypeEnv.OrderedMap
