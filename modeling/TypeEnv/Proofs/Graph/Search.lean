import TypeEnv.Graph.Search
import TypeEnv.Proofs.Resolver.Terminals

/-! The search for placeholders in a settled graph. As long as nothing that is left to look at is a
placeholder, a step looks at something that is none, and adds references that are none. -/

namespace TypeEnv

variable {graph : TypeGraph}

namespace PlaceholderSearch

theorem step_of_settled (hgraph : graph.Settled) {search : PlaceholderSearch}
    (h : ∀ t ∈ search.types, ¬ graph.StandsIn t) :
    search.step graph = none ∨ ∃ rest : PlaceholderSearch, search.step graph = some (.inr rest) ∧
      ∀ t ∈ rest.types, ¬ graph.StandsIn t := by
  obtain ⟨types, signatures, seenTypes, seenSignatures⟩ := search
  rcases types with _ | ⟨id, types⟩
  · rcases signatures with _ | ⟨s, signatures⟩
    · exact .inl rfl
    · right
      simp only [step]
      split
      · exact ⟨_, rfl, nofun⟩
      · split
        · exact ⟨_, rfl, nofun⟩
        · next signature hsignature =>
          refine ⟨_, rfl, fun t ht => hgraph.signatures signature ?_ t (by simpa [push] using ht)⟩
          exact Array.mem_of_getElem? hsignature
  · right
    have hid := h id List.mem_cons_self
    have htypes := fun t ht => h t (List.mem_cons_of_mem id ht)
    simp only [step]
    split
    · exact ⟨_, rfl, htypes⟩
    · split
      · exact ⟨_, rfl, htypes⟩
      · next record hrecord => exact absurd ⟨record, hrecord⟩ hid
      · next node _ hnode =>
        refine ⟨_, rfl, fun t ht => ?_⟩
        rcases List.mem_append.1 ht with ht | ht
        · exact hgraph.nodes node (Array.mem_of_getElem? hnode) t (by simpa using ht)
        · exact htypes t ht

theorem run_of_settled (hgraph : graph.Settled) (budget : Nat) {search : PlaceholderSearch}
    (h : ∀ t ∈ search.types, ¬ graph.StandsIn t) : run graph budget search = none := by
  induction budget generalizing search with
  | zero => rfl
  | succ budget ih =>
    rcases step_of_settled hgraph h with hstep | ⟨rest, hstep, hrest⟩
    · simp only [run, hstep]
    · simp only [run, hstep, ih hrest]

end PlaceholderSearch

theorem TypeGraph.placeholderFrom?_of_settled (hgraph : graph.Settled) {roots : List TypeId}
    (h : ∀ t ∈ roots, ¬ graph.StandsIn t) : graph.placeholderFrom? roots = none :=
  PlaceholderSearch.run_of_settled hgraph _ (by simpa using h)

end TypeEnv
