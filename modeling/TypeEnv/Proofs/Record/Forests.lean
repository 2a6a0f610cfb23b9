import TypeEnv.Proofs.Record.Rows
import Mathlib.Data.List.Count

/-! Signature trees laid out flat are a forest. Every number is the root of one of the trees or stands in
one row, and there only once; and what stands in a row are the numbers of rows before it. -/

namespace TypeEnv

variable {α : Type}

/-- Each row holds numbers of rows before it, with the first row numbered `start`. -/
def Descends (start : ℕ) (rows : List (Signature α ℕ)) : Prop :=
  ∀ (j : ℕ) row, rows[j]? = some row → ∀ i ∈ row.signatureRefs, i < start + j

section Descends

variable {start : ℕ} {rows rows' : List (Signature α ℕ)}

theorem descends_nil : Descends start ([] : List (Signature α ℕ)) := by
  simp [Descends]

theorem descends_singleton {row : Signature α ℕ} (h : ∀ i ∈ row.signatureRefs, i < start) :
    Descends start [row] := by
  intro j row' hj i hi
  obtain ⟨hlt, hrow⟩ := List.getElem?_eq_some_iff.1 hj
  obtain rfl : j = 0 := by simpa using hlt
  obtain rfl : row = row' := hrow
  exact h i hi

theorem Descends.append (h : Descends start rows) (h' : Descends (start + rows.length) rows') :
    Descends start (rows ++ rows') := by
  intro j row hj i hi
  rcases Nat.lt_or_ge j rows.length with hlt | hge
  · rw [List.getElem?_append_left hlt] at hj
    exact h j row hj i hi
  · rw [List.getElem?_append_right hge] at hj
    have hlt := h' _ row hj i hi
    omega

end Descends

namespace SignatureTree

/-! ### Each number once -/

section Once

/-- The numbers in `roots` and in `rows` are the `n` numbers from `start` on, each once. -/
def Once (start n : ℕ) (roots : List ℕ) (rows : List (Signature α ℕ)) : Prop :=
  (roots ++ rows.flatMap (·.signatureRefs)).Perm (List.range' start n)

variable {start n n' : ℕ} {roots roots' : List ℕ} {rows rows' : List (Signature α ℕ)}

theorem Once.append (h : Once start n roots rows) (h' : Once (start + n) n' roots' rows') :
    Once start (n + n') (roots ++ roots') (rows ++ rows') := by
  have hperm := List.Perm.append h h'
  rw [List.range'_append_1] at hperm
  refine List.Perm.trans ?_ hperm
  rw [List.perm_iff_count]
  intro i
  simp only [List.flatMap_append, List.count_append]
  omega

/-- A root over all of these takes them in. -/
theorem Once.root (h : Once start n roots rows) {row : Signature α ℕ} (hrow : row.signatureRefs = roots) :
    Once start (n + 1) [start + n] (rows ++ [row]) := by
  rw [Once, List.range'_concat, Nat.one_mul, List.flatMap_append, List.flatMap_singleton, hrow]
  exact List.perm_append_comm.trans (((List.perm_append_comm).trans h).append_right _)

end Once

mutual

/-- Of the numbers of a tree the last is its root, and each of the others stands in one of its rows. -/
theorem once (start : ℕ) : ∀ tree : SignatureTree α, Once start tree.count [tree.root start] (tree.rows start)
  | .node header target unions => by
    have h := (once_target start target).append (once_list (start + countOfTarget target) unions)
    rw [rows, ← List.append_assoc]
    exact h.root rfl

theorem once_target (start : ℕ) : ∀ target : Option (SignatureTree α),
    Once start (countOfTarget target) (target.map (root start)).toList (rowsOfTarget start target)
  | none => .refl []
  | some tree => once start tree

/-- The roots of trees that follow one another, and what stands in their rows. -/
theorem once_list (start : ℕ) : ∀ trees : List (SignatureTree α),
    Once start (countOfList trees) (roots start trees) (rowsOfList start trees)
  | [] => .refl []
  | tree :: trees => (once start tree).append (once_list (start + tree.count) trees)

end

/-! ### Inner signatures first -/

mutual

theorem descends (start : ℕ) : ∀ tree : SignatureTree α, Descends start (tree.rows start)
  | .node header target unions => by
    have htarget := descends_target start target
    have hunions := descends_list (start + countOfTarget target) unions
    rw [rows]
    refine htarget.append (Descends.append ?_ (descends_singleton fun i hi => ?_))
    · rwa [length_rowsOfTarget]
    · rw [length_rowsOfTarget, length_rowsOfList]
      have hmem := ((once_target start target).append
        (once_list (start + countOfTarget target) unions)).mem_iff.1 (List.mem_append_left _ hi)
      exact Nat.add_assoc .. ▸ (List.mem_range'_1.1 hmem).2

theorem descends_target (start : ℕ) : ∀ target : Option (SignatureTree α),
    Descends start (rowsOfTarget start target)
  | none => descends_nil
  | some tree => descends start tree

theorem descends_list (start : ℕ) : ∀ trees : List (SignatureTree α), Descends start (rowsOfList start trees)
  | [] => descends_nil
  | tree :: trees => by
    refine (descends start tree).append ?_
    rw [length_rows]
    exact descends_list (start + tree.count) trees

end

end SignatureTree

end TypeEnv
