import TypeEnv.Proofs.Resolver.Steps
import Mathlib.Data.List.Find
import Mathlib.Data.List.Nodup

/-! Where placeholders come to stand. Taking in adds a node for each record that is mentioned and was not
mentioned before, in the order of first mention, and no other node. -/

namespace TypeEnv

/-- A list without repetitions that finds what another one finds is the other one without its repetitions. -/
theorem eq_eraseDups_of_find? {α : Type} [DecidableEq α] {l l' : List α} (hnodup : l.Nodup)
    (h : ∀ p : α → Bool, l.find? p = l'.find? p) : l = l'.eraseDups := by
  induction l generalizing l' with
  | nil =>
    have hall := h fun _ => true
    rcases l' with _ | ⟨b, l'⟩
    · rfl
    · simp at hall
  | cons a l ih =>
    obtain ⟨ha, hl⟩ := List.nodup_cons.1 hnodup
    rcases l' with _ | ⟨b, l'⟩
    · simpa using h fun _ => true
    · obtain rfl : a = b := by simpa using h fun _ => true
      rw [List.eraseDups_cons, ← ih hl fun p => ?_]
      -- the first element is out of the way when it is not looked for
      have hrest := h fun x => decide ((!x == a) = true ∧ p x = true)
      rw [List.find?_cons_of_neg (by simp), List.find?_cons_of_neg (by simp)] at hrest
      rw [List.find?_filter, ← hrest]
      refine (List.find?_congr fun x hx => ?_).symm
      have hne : x ≠ a := fun heq => ha (heq ▸ hx)
      simp [hne]

namespace Resolver

variable {r r' : Resolver} {ids before : List RecordId}

/-- No record is stood in for twice, and a record that is stood in for has a placeholder. -/
structure Distinct (r : Resolver) : Prop where
  nodup : r.graph.mentioned.Nodup
  held : ∀ id ∈ r.graph.mentioned, r.placeholders[id]? ≠ none

theorem Step.distinct (h : Step r r') (hr : r.Distinct) : r'.Distinct := by
  cases h with
  | @placeholder id hid =>
    have hmentioned : (r.withPlaceholder id).graph.mentioned = r.graph.mentioned ++ [id] :=
      TypeGraph.mentioned_alloc_placeholder _ _
    refine ⟨?_, fun id' hid' => ?_⟩
    · rw [hmentioned, ← List.concat_eq_append]
      exact List.Nodup.concat (fun hmem => hr.held id hmem hid) hr.nodup
    · rw [placeholders_withPlaceholder]
      split
      · exact Option.some_ne_none _
      · next hne =>
        rw [hmentioned] at hid'
        rcases List.mem_append.1 hid' with hmem | hmem
        · exact hr.held id' hmem
        · exact absurd (List.mem_singleton.1 hmem).symm hne
  | signature => exact ⟨hr.nodup, hr.held⟩
  | @registered id form hid =>
    have hmentioned : (r.withRegistered id (.form form)).graph.mentioned = r.graph.mentioned :=
      TypeGraph.mentioned_alloc_form _ _
    exact ⟨hmentioned ▸ hr.nodup, fun id' hid' => hr.held id' (hmentioned ▸ hid')⟩

/-- As long as no record is registered, all new nodes are placeholders. -/
theorem exists_placeholders_of_steps (h : Steps r r') :
    r.graph.registry.size < r'.graph.registry.size ∨
      r.graph.registry.size = r'.graph.registry.size ∧ ∃ ids : List RecordId,
        r'.graph.nodes.toList = r.graph.nodes.toList ++ ids.map Node.placeholder := by
  induction h with
  | refl => exact .inr ⟨rfl, [], by simp⟩
  | @tail r₁ r₂ _ hstep ih =>
    cases hstep with
    | @placeholder id hid =>
      refine ih.imp_right fun ⟨hsize, ids, hnodes⟩ => ⟨hsize, ids ++ [id], ?_⟩
      simp [withPlaceholder, TypeGraph.alloc, hnodes]
    | signature => exact ih
    | @registered id form hid =>
      have hinsert : (r₁.withRegistered id (.form form)).graph.registry.size =
          r₁.graph.registry.size + 1 := size_insert_of_new _ _ hid
      left
      omega

/-- The records that were not mentioned before get a node each, in the order of first mention. -/
theorem Takes.nodes_eq (h : Takes ids r r') (hsteps : Steps r r') (hr : r.Distinct)
    (hbefore : ∀ p, r.graph.mentioned.find? p = before.find? p) : r'.graph.nodes.toList =
      r.graph.nodes.toList ++ (ids.removeAll before).eraseDups.map Node.placeholder := by
  have hr' := hsteps.preserves (fun _ _ => Step.distinct) hr
  rcases exists_placeholders_of_steps hsteps with hlt | ⟨-, new, hnodes⟩
  · rw [h.registry] at hlt
    exact absurd hlt (Nat.lt_irrefl _)
  · have hnew : r'.graph.mentioned = r.graph.mentioned ++ new := by
      rw [TypeGraph.mentioned, hnodes, List.filterMap_append, List.filterMap_map]
      simp [TypeGraph.mentioned, Function.comp_def, Node.standsFor?]
    have hall : r'.graph.mentioned = (before ++ ids).eraseDups := by
      refine eq_eraseDups_of_find? hr'.nodup fun p => ?_
      rw [h.mentioned, List.find?_append, hbefore, ← List.find?_append]
    rw [hnew, List.eraseDups_append, ← eq_eraseDups_of_find? hr.nodup hbefore] at hall
    rw [hnodes, List.append_cancel_left hall]

end Resolver

end TypeEnv
