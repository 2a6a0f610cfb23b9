import TypeEnv.Proofs.Graph.Handles
import TypeEnv.Proofs.Graph.Search
import Mathlib.Algebra.BigOperators.Fin
import Mathlib.Algebra.Order.BigOperators.Group.Finset
import Mathlib.Logic.Relation

/-! What the search for placeholders finds in any graph. Types and signatures may refer to each other
in circles, and to handles of no arena. A step enters an item that was not seen yet and adds what it
refers to, so whatever the roots lead to has been seen or comes after something that is left to look
at; when nothing is left, all of it has been seen. No item is entered twice, so the references that
are not yet entered bound the steps to come, and the search ends within its budget. -/

namespace TypeEnv

open Relation

namespace TypeGraph

variable (graph : TypeGraph)

/-- One reference of a node or of a signature. A handle of no arena refers to nothing. -/
inductive RefersTo : TypeId ⊕ SignatureId → TypeId ⊕ SignatureId → Prop where
  | nodeType {t u : TypeId} {node : Node} (hnode : graph.node? t = some node)
      (hu : u ∈ node.typeRefs) : RefersTo (.inl t) (.inl u)
  | nodeSignature {t : TypeId} {s : SignatureId} {node : Node} (hnode : graph.node? t = some node)
      (hs : s ∈ node.signatureRefs) : RefersTo (.inl t) (.inr s)
  | signatureType {s : SignatureId} {t : TypeId} {signature : StoredSignature}
      (hsignature : graph.signature? s = some signature) (ht : t ∈ signature.typeRefs) :
      RefersTo (.inr s) (.inl t)
  | target {s s' : SignatureId} {signature : StoredSignature}
      (hsignature : graph.signature? s = some signature) (hs : signature.target = some s') :
      RefersTo (.inr s) (.inr s')
  | unionMember {s s' : SignatureId} {signature : StoredSignature}
      (hsignature : graph.signature? s = some signature) (hs : s' ∈ signature.unionSignatures) :
      RefersTo (.inr s) (.inr s')

/-- The item is one of these types or of these signatures. -/
def Among (types : List TypeId) (signatures : List SignatureId) : TypeId ⊕ SignatureId → Prop :=
  Sum.elim (· ∈ types) (· ∈ signatures)

variable {graph}

theorem refersTo_node {t : TypeId} {node : Node} (hnode : graph.node? t = some node)
    (item : TypeId ⊕ SignatureId) :
    graph.RefersTo (.inl t) item ↔ Among node.typeRefs node.signatureRefs item := by
  constructor
  · rintro (⟨h, hu⟩ | ⟨h, hs⟩)
    · obtain rfl := Option.some.inj (hnode.symm.trans h)
      exact hu
    · obtain rfl := Option.some.inj (hnode.symm.trans h)
      exact hs
  · intro h
    cases item with
    | inl u => exact .nodeType hnode h
    | inr s => exact .nodeSignature hnode h

theorem refersTo_signature {s : SignatureId} {signature : StoredSignature}
    (hsignature : graph.signature? s = some signature) (item : TypeId ⊕ SignatureId) :
    graph.RefersTo (.inr s) item ↔ Among signature.typeRefs signature.signatureRefs item := by
  constructor
  · rintro (_ | _ | ⟨h, ht⟩ | ⟨h, hs⟩ | ⟨h, hs⟩)
    · obtain rfl := Option.some.inj (hsignature.symm.trans h)
      exact ht
    · obtain rfl := Option.some.inj (hsignature.symm.trans h)
      exact List.mem_append_left _ (Option.mem_toList.2 hs)
    · obtain rfl := Option.some.inj (hsignature.symm.trans h)
      exact List.mem_append_right _ hs
  · intro h
    cases item with
    | inl t => exact .signatureType hsignature h
    | inr s' =>
      rcases List.mem_append.1 h with htarget | hmember
      · exact .target hsignature (Option.mem_toList.1 htarget)
      · exact .unionMember hsignature hmember

theorem among_nil (item : TypeId ⊕ SignatureId) : ¬ Among [] [] item := by
  cases item <;> simp [Among]

theorem refersTo_of_node?_none {t : TypeId} (hnode : graph.node? t = none)
    (item : TypeId ⊕ SignatureId) : graph.RefersTo (.inl t) item ↔ Among [] [] item := by
  refine iff_of_false ?_ (among_nil item)
  rintro (⟨h, _⟩ | ⟨h, _⟩) <;> cases hnode.symm.trans h

theorem refersTo_of_signature?_none {s : SignatureId} (hsignature : graph.signature? s = none)
    (item : TypeId ⊕ SignatureId) : graph.RefersTo (.inr s) item ↔ Among [] [] item := by
  refine iff_of_false ?_ (among_nil item)
  rintro (_ | _ | ⟨h, _⟩ | ⟨h, _⟩ | ⟨h, _⟩) <;> cases hsignature.symm.trans h

variable (graph)

/-- Some root leads to the item. -/
def ReachedFrom (roots : List TypeId) (item : TypeId ⊕ SignatureId) : Prop :=
  ∃ root ∈ roots, ReflTransGen graph.RefersTo (.inl root) item

end TypeGraph

/-! ### Entries that are not seen yet -/

section Unseen

variable {κ α : Type} [Ord κ] (position : κ → ℕ) (weight : α → ℕ) (l : List α)

open Classical in
/-- The weights of the entries at positions that no seen key has. -/
noncomputable def unseenWeight (seen : Std.TreeSet κ) : ℕ :=
  ∑ i ∈ Finset.range l.length, if ∃ k ∈ seen, position k = i then 0 else (l[i]?.map weight).getD 0

theorem unseenWeight_empty : unseenWeight position weight l ∅ = (l.map weight).sum := by
  rw [← Fin.sum_univ_fun_getElem, unseenWeight, ← Fin.sum_univ_eq_sum_range]
  refine Finset.sum_congr rfl fun i _ => ?_
  rw [if_neg (by simp), List.getElem?_eq_getElem i.isLt]
  rfl

theorem unseenWeight_insert_le [Std.TransOrd κ] (seen : Std.TreeSet κ) (k : κ) :
    unseenWeight position weight l (seen.insert k) ≤ unseenWeight position weight l seen := by
  classical
  refine Finset.sum_le_sum fun i _ => ?_
  by_cases hi : ∃ k ∈ seen, position k = i
  · obtain ⟨k', hk', hi'⟩ := hi
    rw [if_pos ⟨k', Std.TreeSet.mem_insert.2 (.inr hk'), hi'⟩]
    exact Nat.zero_le _
  · rw [if_neg hi]
    split_ifs
    · exact Nat.zero_le _
    · exact Nat.le_refl _

/-- An entry that comes to be seen takes its weight away. -/
theorem unseenWeight_insert [Std.TransOrd κ] [Std.LawfulEqOrd κ]
    (hposition : Function.Injective position) {seen : Std.TreeSet κ} {k : κ} {a : α}
    (ha : l[position k]? = some a) (hk : k ∉ seen) :
    unseenWeight position weight l (seen.insert k) + weight a =
      unseenWeight position weight l seen := by
  classical
  have hmem : position k ∈ Finset.range l.length :=
    Finset.mem_range.2 (List.getElem?_eq_some_iff.1 ha).1
  have hold : ¬ ∃ k' ∈ seen, position k' = position k := by
    rintro ⟨k', hk', heq⟩
    exact hk (hposition heq ▸ hk')
  have hnew : ∃ k' ∈ seen.insert k, position k' = position k :=
    ⟨k, Std.TreeSet.mem_insert_self, rfl⟩
  rw [unseenWeight, unseenWeight, ← Finset.sum_erase_add _ _ hmem, ← Finset.sum_erase_add _ _ hmem,
    if_pos hnew, if_neg hold, ha, Nat.add_zero]
  congr 1
  refine Finset.sum_congr rfl fun i hi => if_congr ?_ rfl rfl
  simp only [Std.TreeSet.mem_insert, Std.LawfulEqOrd.compare_eq_iff_eq]
  constructor
  · rintro ⟨k', rfl | hk', heq⟩
    · exact absurd heq.symm (Finset.ne_of_mem_erase hi)
    · exact ⟨k', hk', heq⟩
  · rintro ⟨k', hk', heq⟩
    exact ⟨k', .inr hk', heq⟩

end Unseen

namespace PlaceholderSearch

open TypeGraph

variable (graph : TypeGraph)

/-- The references of the nodes and of the signatures that have not been seen. -/
noncomputable def unseen (search : PlaceholderSearch) : ℕ :=
  unseenWeight (fun t : TypeId => t.val.toNat)
    (fun node => node.typeRefs.length + node.signatureRefs.length)
    graph.nodes.toList search.seenTypes +
  unseenWeight (fun s : SignatureId => s.val.toNat)
    (fun signature => signature.typeRefs.length + signature.signatureRefs.length)
    graph.signatures.toList search.seenSignatures

/-- What is left to look at, and what can still be added to it. -/
noncomputable def work (search : PlaceholderSearch) : ℕ :=
  search.types.length + search.signatures.length + unseen graph search

/-! ### Steps -/

/-- The item is left to look at. -/
def Pending (search : PlaceholderSearch) : TypeId ⊕ SignatureId → Prop :=
  Among search.types search.signatures

/-- The item has been looked at. -/
def Seen (search : PlaceholderSearch) : TypeId ⊕ SignatureId → Prop :=
  Sum.elim (· ∈ search.seenTypes) (· ∈ search.seenSignatures)

/-- The item is taken from what is left to look at, and is seen from then on. -/
structure Drops (search : PlaceholderSearch) (item : TypeId ⊕ SignatureId)
    (rest : PlaceholderSearch) : Prop where
  pending_iff : ∀ other, search.Pending other ↔ other = item ∨ rest.Pending other
  seen_iff : ∀ other, rest.Seen other ↔ other = item ∨ search.Seen other
  length_eq : search.types.length + search.signatures.length =
    rest.types.length + rest.signatures.length + 1

/-- What a step does at an item that the search does not end with. -/
structure Visits (search : PlaceholderSearch) (item : TypeId ⊕ SignatureId)
    (rest : PlaceholderSearch) : Prop where
  pending : search.Pending item
  seen_iff : ∀ other, rest.Seen other ↔ other = item ∨ search.Seen other
  keeps : ∀ other, search.Pending other → other = item ∨ rest.Pending other
  adds : ∀ other, rest.Pending other → search.Pending other ∨ graph.RefersTo item other
  /-- An item that was not seen before is no placeholder, and all that it refers to is added. -/
  enters : search.Seen item ∨ (∀ t, item = .inl t → ¬ graph.StandsIn t) ∧
    ∀ other, graph.RefersTo item other → rest.Pending other
  work_lt : work graph rest < work graph search

variable {graph} {search rest : PlaceholderSearch} {item : TypeId ⊕ SignatureId}

theorem pending_push (types : List TypeId) (signatures : List SignatureId)
    (other : TypeId ⊕ SignatureId) :
    (rest.push types signatures).Pending other ↔ Among types signatures other ∨ rest.Pending other := by
  cases other <;> simp [Pending, Among, push]

namespace Drops

theorem type {t : TypeId} {types : List TypeId} (htypes : search.types = t :: types) :
    Drops search (.inl t) { search with types, seenTypes := search.seenTypes.insert t } where
  pending_iff other := by cases other <;> simp [Pending, Among, htypes]
  seen_iff other := by
    cases other with
    | inl u =>
      simp only [Seen, Sum.elim_inl, Std.TreeSet.mem_insert,
        Std.LawfulEqOrd.compare_eq_iff_eq, Sum.inl.injEq]
      exact or_congr_left eq_comm
    | inr s => simp [Seen]
  length_eq := by
    simp only [htypes, List.length_cons]
    omega

theorem signature {s : SignatureId} {signatures : List SignatureId}
    (hsignatures : search.signatures = s :: signatures) :
    Drops search (.inr s)
      { search with signatures, seenSignatures := search.seenSignatures.insert s } where
  pending_iff other := by cases other <;> simp [Pending, Among, hsignatures]
  seen_iff other := by
    cases other with
    | inl t => simp [Seen]
    | inr s' =>
      simp only [Seen, Sum.elim_inr, Std.TreeSet.mem_insert,
        Std.LawfulEqOrd.compare_eq_iff_eq, Sum.inr.injEq]
      exact or_congr_left eq_comm
  length_eq := by
    simp only [hsignatures, List.length_cons]
    omega

variable (h : Drops search item rest)

include h

theorem visits_seen (hitem : search.Seen item) (hunseen : unseen graph rest ≤ unseen graph search) :
    Visits graph search item rest where
  pending := (h.pending_iff item).2 (.inl rfl)
  seen_iff := h.seen_iff
  keeps other := (h.pending_iff other).1
  adds other hother := .inl ((h.pending_iff other).2 (.inr hother))
  enters := .inl hitem
  work_lt := by
    have := h.length_eq
    simp only [work]
    omega

theorem visits_push {types : List TypeId} {signatures : List SignatureId}
    (hnot : ∀ t, item = .inl t → ¬ graph.StandsIn t)
    (hrefs : ∀ other, graph.RefersTo item other ↔ Among types signatures other)
    (hunseen : unseen graph rest + (types.length + signatures.length) ≤ unseen graph search) :
    Visits graph search item (rest.push types signatures) where
  pending := (h.pending_iff item).2 (.inl rfl)
  seen_iff := h.seen_iff
  keeps other hother :=
    ((h.pending_iff other).1 hother).imp_right fun hrest => (pending_push _ _ _).2 (.inr hrest)
  adds other hother := by
    rcases (pending_push _ _ _).1 hother with hadded | hrest
    · exact .inr ((hrefs other).2 hadded)
    · exact .inl ((h.pending_iff other).2 (.inr hrest))
  enters := .inr ⟨hnot, fun other hother => (pending_push _ _ _).2 (.inl ((hrefs other).1 hother))⟩
  work_lt := by
    have hlength := h.length_eq
    have hrest : unseen graph (rest.push types signatures) = unseen graph rest := rfl
    rw [work, work, hrest]
    simp only [push, List.length_append, List.length_reverse]
    omega

end Drops

theorem unseen_insert_type_le (t : TypeId) (types : List TypeId) :
    unseen graph { search with types, seenTypes := search.seenTypes.insert t } ≤
      unseen graph search :=
  Nat.add_le_add_right (unseenWeight_insert_le _ _ _ _ _) _

theorem unseen_insert_signature_le (s : SignatureId) (signatures : List SignatureId) :
    unseen graph { search with signatures, seenSignatures := search.seenSignatures.insert s } ≤
      unseen graph search :=
  Nat.add_le_add_left (unseenWeight_insert_le _ _ _ _ _) _

theorem unseen_insert_type {t : TypeId} {node : Node} (hnode : graph.node? t = some node)
    (ht : t ∉ search.seenTypes) (types : List TypeId) :
    unseen graph { search with types, seenTypes := search.seenTypes.insert t } +
      (node.typeRefs.length + node.signatureRefs.length) = unseen graph search := by
  have hinjective : Function.Injective fun t : TypeId => t.val.toNat :=
    fun _ _ => TypeId.eq_of_toNat_eq
  have hlist : graph.nodes.toList[t.val.toNat]? = some node := by simpa [node?] using hnode
  have hweight := unseenWeight_insert (fun t : TypeId => t.val.toNat)
    (fun node : Node => node.typeRefs.length + node.signatureRefs.length) graph.nodes.toList
    hinjective hlist ht
  simp only [unseen]
  omega

theorem unseen_insert_signature {s : SignatureId} {signature : StoredSignature}
    (hsignature : graph.signature? s = some signature) (hs : s ∉ search.seenSignatures)
    (signatures : List SignatureId) :
    unseen graph { search with signatures, seenSignatures := search.seenSignatures.insert s } +
      (signature.typeRefs.length + signature.signatureRefs.length) = unseen graph search := by
  have hlist : graph.signatures.toList[s.val.toNat]? = some signature := by
    simpa [signature?] using hsignature
  have hweight := unseenWeight_insert (fun s : SignatureId => s.val.toNat)
    (fun signature : StoredSignature => signature.typeRefs.length + signature.signatureRefs.length)
    graph.signatures.toList SignatureId.toNat_injective hlist hs
  simp only [unseen]
  omega

theorem step_signature {s : SignatureId} {signatures : List SignatureId} (htypes : search.types = [])
    (hsignatures : search.signatures = s :: signatures) :
    ∃ rest, search.step graph = some (.inr rest) ∧ Visits graph search (.inr s) rest := by
  have hdrops := Drops.signature hsignatures
  have hnot : ∀ t, (.inr s : TypeId ⊕ SignatureId) = .inl t → ¬ graph.StandsIn t :=
    fun t ht => absurd ht Sum.inr_ne_inl
  by_cases hs : s ∈ search.seenSignatures
  · refine ⟨_, ?_, hdrops.visits_seen hs (unseen_insert_signature_le s signatures)⟩
    simp only [step, htypes, hsignatures, hs, if_true]
  rcases hsignature : graph.signature? s with _ | signature
  · refine ⟨_, ?_, hdrops.visits_push hnot (refersTo_of_signature?_none hsignature)
      (unseen_insert_signature_le s signatures)⟩
    simp only [step, htypes, hsignatures, hs, if_false, hsignature]
    rfl
  · refine ⟨_, ?_, hdrops.visits_push hnot (refersTo_signature hsignature)
      (unseen_insert_signature hsignature hs signatures).le⟩
    simp only [step, htypes, hsignatures, hs, if_false, hsignature]

theorem step_type {t : TypeId} {types : List TypeId} (htypes : search.types = t :: types) :
    (search.step graph = some (.inl t) ∧ graph.StandsIn t) ∨
      ∃ rest, search.step graph = some (.inr rest) ∧ Visits graph search (.inl t) rest := by
  have hdrops := Drops.type htypes
  by_cases ht : t ∈ search.seenTypes
  · refine .inr ⟨_, ?_, hdrops.visits_seen ht (unseen_insert_type_le t types)⟩
    simp only [step, htypes, ht, if_true]
  by_cases hstands : graph.StandsIn t
  · obtain ⟨record, hrecord⟩ := hstands
    refine .inl ⟨?_, record, hrecord⟩
    simp only [step, htypes, ht, if_false, hrecord]
  have hnot : ∀ u, (.inl t : TypeId ⊕ SignatureId) = .inl u → ¬ graph.StandsIn u :=
    fun u hu => Sum.inl.inj hu ▸ hstands
  rcases hnode : graph.node? t with _ | form | record
  · refine .inr ⟨_, ?_, hdrops.visits_push hnot (refersTo_of_node?_none hnode)
      (unseen_insert_type_le t types)⟩
    simp only [step, htypes, ht, if_false, hnode]
    rfl
  · refine .inr ⟨_, ?_, hdrops.visits_push hnot (refersTo_node hnode)
      (unseen_insert_type hnode ht types).le⟩
    simp only [step, htypes, ht, if_false, hnode]
  · exact absurd ⟨record, hnode⟩ hstands

/-- Nothing is left to look at, the search has come to a placeholder, or it visits an item. -/
theorem step_cases (graph : TypeGraph) (search : PlaceholderSearch) :
    (search.step graph = none ∧ ∀ item, ¬ search.Pending item) ∨
    (∃ p, search.step graph = some (.inl p) ∧ search.Pending (.inl p) ∧ graph.StandsIn p) ∨
    ∃ item rest, search.step graph = some (.inr rest) ∧ Visits graph search item rest := by
  rcases htypes : search.types with _ | ⟨t, types⟩
  · rcases hsignatures : search.signatures with _ | ⟨s, signatures⟩
    · refine .inl ⟨by simp only [step, htypes, hsignatures], fun item => ?_⟩
      rw [Pending, htypes, hsignatures]
      exact among_nil item
    · exact .inr (.inr ⟨_, step_signature htypes hsignatures⟩)
  · right
    rcases step_type htypes with ⟨hstep, hstands⟩ | hvisits
    · exact .inl ⟨t, hstep, by simp [Pending, Among, htypes], hstands⟩
    · exact .inr ⟨_, hvisits⟩

theorem not_pending_of_step (hstep : search.step graph = none) : ¬ search.Pending item := by
  rcases step_cases graph search with ⟨-, hdone⟩ | ⟨p, hp, -⟩ | ⟨_, _, hrest, -⟩
  · exact hdone item
  · cases hstep.symm.trans hp
  · cases hstep.symm.trans hrest

theorem standsIn_of_step {p : TypeId} (hstep : search.step graph = some (.inl p)) :
    search.Pending (.inl p) ∧ graph.StandsIn p := by
  rcases step_cases graph search with ⟨hnone, -⟩ | ⟨q, hq, hstands⟩ | ⟨_, _, hrest, -⟩
  · cases hstep.symm.trans hnone
  · cases hstep.symm.trans hq
    exact hstands
  · cases hstep.symm.trans hrest

theorem exists_visits_of_step (hstep : search.step graph = some (.inr rest)) :
    ∃ item, Visits graph search item rest := by
  rcases step_cases graph search with ⟨hnone, -⟩ | ⟨p, hp, -⟩ | ⟨item, _, hrest, hvisits⟩
  · cases hstep.symm.trans hnone
  · cases hstep.symm.trans hp
  · cases hstep.symm.trans hrest
    exact ⟨item, hvisits⟩

/-! ### The whole search -/

/-- A search that takes steps without a bound comes to an end with this answer. -/
inductive Ends (graph : TypeGraph) : PlaceholderSearch → Option TypeId → Prop where
  | exhausted {search : PlaceholderSearch} (hstep : search.step graph = none) : Ends graph search none
  | found {search : PlaceholderSearch} {p : TypeId} (hstep : search.step graph = some (.inl p)) :
      Ends graph search (some p)
  | next {search rest : PlaceholderSearch} {answer : Option TypeId}
      (hstep : search.step graph = some (.inr rest)) (hrest : Ends graph rest answer) :
      Ends graph search answer

/-- Where no work is left, no step is taken. -/
theorem step_eq_none (h : work graph search = 0) : search.step graph = none := by
  rcases step_cases graph search with ⟨hstep, -⟩ | ⟨p, -, hp, -⟩ | ⟨item, rest, -, hvisits⟩
  · exact hstep
  · have := List.length_pos_of_mem hp
    simp only [work] at h
    omega
  · exact absurd (h ▸ hvisits.work_lt) (Nat.not_lt_zero _)

/-- The budget is no bound for a search with no more work than that. -/
theorem ends_run {budget : ℕ} (h : work graph search ≤ budget) :
    Ends graph search (run graph budget search) := by
  induction budget generalizing search with
  | zero => exact .exhausted (step_eq_none (Nat.le_zero.1 h))
  | succ budget ih =>
    rcases hstep : search.step graph with _ | p | rest
    · simpa only [run, hstep] using .exhausted hstep
    · simpa only [run, hstep] using .found hstep
    · obtain ⟨item, hvisits⟩ := exists_visits_of_step hstep
      have hlt := hvisits.work_lt
      have hrest : Ends graph rest (run graph budget rest) := ih (by omega)
      simpa only [run, hstep] using .next hstep hrest

/-- All that the roots lead to has been seen or comes after something that is left to look at. -/
structure Covers (graph : TypeGraph) (roots : List TypeId) (search : PlaceholderSearch) : Prop where
  starts : ∀ root ∈ roots, search.Pending (.inl root) ∨ search.Seen (.inl root)
  closed : ∀ item other, search.Seen item → graph.RefersTo item other →
    search.Pending other ∨ search.Seen other
  seen : ∀ t, search.Seen (.inl t) → ¬ graph.StandsIn t
  reached : ∀ item, search.Pending item → graph.ReachedFrom roots item

variable {roots : List TypeId}

theorem covers_roots (graph : TypeGraph) (roots : List TypeId) :
    Covers graph roots { types := roots.reverse } where
  starts root hroot := .inl (List.mem_reverse.2 hroot)
  closed item other hseen := by cases item <;> simp [Seen] at hseen
  seen t hseen := by simp [Seen] at hseen
  reached item hpending := by
    cases item with
    | inl t => exact ⟨t, List.mem_reverse.1 hpending, .refl⟩
    | inr s => cases hpending

theorem Visits.left {other : TypeId ⊕ SignatureId} (h : Visits graph search item rest)
    (hother : search.Pending other ∨ search.Seen other) : rest.Pending other ∨ rest.Seen other := by
  rcases hother with hpending | hseen
  · exact (h.keeps other hpending).symm.imp_right fun heq => (h.seen_iff other).2 (.inl heq)
  · exact .inr ((h.seen_iff other).2 (.inr hseen))

theorem Covers.step (h : Covers graph roots search) (hvisits : Visits graph search item rest) :
    Covers graph roots rest where
  starts root hroot := hvisits.left (h.starts root hroot)
  closed source other hseen hother := by
    rcases (hvisits.seen_iff source).1 hseen with rfl | hseen
    · rcases hvisits.enters with hseen | ⟨-, hadded⟩
      · exact hvisits.left (h.closed source other hseen hother)
      · exact .inl (hadded other hother)
    · exact hvisits.left (h.closed source other hseen hother)
  seen t hseen := by
    rcases (hvisits.seen_iff _).1 hseen with heq | hseen
    · subst heq
      rcases hvisits.enters with hseen | ⟨hnot, -⟩
      · exact h.seen t hseen
      · exact hnot t rfl
    · exact h.seen t hseen
  reached other hother := by
    rcases hvisits.adds other hother with hpending | hrefers
    · exact h.reached other hpending
    · obtain ⟨root, hroot, hleads⟩ := h.reached item hvisits.pending
      exact ⟨root, hroot, hleads.tail hrefers⟩

/-- What the roots lead to has all been seen when nothing is left to look at. -/
theorem Covers.seen_of_reached (h : Covers graph roots search) (hdone : ∀ item, ¬ search.Pending item)
    (hreached : graph.ReachedFrom roots item) : search.Seen item := by
  obtain ⟨root, hroot, hleads⟩ := hreached
  induction hleads with
  | refl => exact (h.starts root hroot).resolve_left (hdone _)
  | tail _ hrefers ih => exact (h.closed _ _ ih hrefers).resolve_left (hdone _)

theorem Ends.answer {answer : Option TypeId} (hends : Ends graph search answer)
    (h : Covers graph roots search) :
    (answer = none → ∀ p, graph.StandsIn p → ¬ graph.ReachedFrom roots (.inl p)) ∧
      ∀ p, answer = some p → graph.StandsIn p ∧ graph.ReachedFrom roots (.inl p) := by
  induction hends with
  | exhausted hstep =>
    refine ⟨fun _ p hp hreached => ?_, nofun⟩
    exact h.seen p (h.seen_of_reached (fun _ => not_pending_of_step hstep) hreached) hp
  | found hstep =>
    refine ⟨nofun, ?_⟩
    rintro _ ⟨⟩
    obtain ⟨hpending, hstands⟩ := standsIn_of_step hstep
    exact ⟨hstands, h.reached _ hpending⟩
  | next hstep _ ih =>
    obtain ⟨_, hvisits⟩ := exists_visits_of_step hstep
    exact ih (h.step hvisits)

end PlaceholderSearch

namespace TypeGraph

theorem work_roots (graph : TypeGraph) (roots : List TypeId) :
    PlaceholderSearch.work graph { types := roots.reverse } = roots.length + graph.referenceCount := by
  simp only [PlaceholderSearch.work, PlaceholderSearch.unseen, unseenWeight_empty, referenceCount,
    List.length_reverse, List.length_nil, List.length_flatMap, List.sum_map_add]
  omega

/-- The search from the roots decides whether they lead to a placeholder. -/
structure SearchDecides (graph : TypeGraph) (roots : List TypeId) : Prop where
  /-- Taken without a bound, the steps end, and with the same answer. -/
  ends : PlaceholderSearch.Ends graph { types := roots.reverse } (graph.placeholderFrom? roots)
  none_iff : graph.placeholderFrom? roots = none ↔
    ∀ p, graph.StandsIn p → ¬ graph.ReachedFrom roots (.inl p)
  found : ∀ p, graph.placeholderFrom? roots = some p → graph.StandsIn p ∧ graph.ReachedFrom roots (.inl p)

/-- The search for a placeholder ends in every graph, whatever refers to whatever in it, and answers
with a placeholder that the roots lead to if there is one. -/
theorem searchDecides (graph : TypeGraph) (roots : List TypeId) : graph.SearchDecides roots := by
  have hends : PlaceholderSearch.Ends graph { types := roots.reverse } (graph.placeholderFrom? roots) :=
    PlaceholderSearch.ends_run (work_roots graph roots).le
  obtain ⟨hnone, hfound⟩ := hends.answer (PlaceholderSearch.covers_roots graph roots)
  refine ⟨hends, ⟨hnone, fun h => ?_⟩, hfound⟩
  rcases hanswer : graph.placeholderFrom? roots with _ | p
  · rfl
  · obtain ⟨hstands, hreached⟩ := hfound p hanswer
    exact absurd hreached (h p hstands)

/-- Two signatures are each the target of the other; the placeholder stands behind both. -/
example :
    let graph : TypeGraph :=
      { nodes := #[.form (.interface { callSignatures := [⟨0⟩], baseTypes := [⟨9⟩] }), .placeholder ⟨7⟩]
        signatures := #[{ header := { returns := ⟨0⟩ }, target := some ⟨1⟩ },
          { header := { returns := ⟨1⟩ }, target := some ⟨0⟩ }] }
    graph.placeholderFrom? [⟨0⟩] = some ⟨1⟩ := by
  decide +kernel

end TypeGraph

end TypeEnv
