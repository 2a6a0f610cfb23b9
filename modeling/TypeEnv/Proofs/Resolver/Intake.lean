import TypeEnv.Proofs.Record.Traversal
import TypeEnv.Proofs.Resolver.Collection

/-! Taking in what a record mentions. Computations that look up records and store signatures always
return while records are collected, and what they return is told with respect to any later state:
for each number the placeholder of its record, for each signature the handle it is stored at. New
placeholders come in the order of first mention. -/

namespace TypeEnv

open Stateful

/-! ### The records stood in for -/

namespace TypeGraph

theorem mentioned_alloc_placeholder (graph : TypeGraph) (id : RecordId) :
    (graph.alloc (.placeholder id)).2.mentioned = graph.mentioned ++ [id] := by
  simp [mentioned, alloc, Node.standsFor?]

theorem mentioned_alloc_form (graph : TypeGraph) (form : TypeForm TypeId SignatureId) :
    (graph.alloc (.form form)).2.mentioned = graph.mentioned := by
  simp [mentioned, alloc, Node.standsFor?]

theorem mem_mentioned {graph : TypeGraph} {id : RecordId} :
    id ∈ graph.mentioned ↔ ∃ i : Nat, graph.nodes[i]? = some (.placeholder id) := by
  simp only [mentioned, List.mem_filterMap, ← Array.getElem?_toList, ← List.mem_iff_getElem?]
  constructor
  · rintro ⟨form | id', hmem, hid⟩
    · cases hid
    · cases hid
      exact hmem
  · exact fun hmem => ⟨_, hmem, rfl⟩

end TypeGraph

namespace Resolver

variable {r r' r'' : Resolver} {ids ids' : List RecordId}

theorem Collecting.mem_mentioned (hr : r.Collecting) {id : RecordId} :
    id ∈ r.graph.mentioned ↔ ∃ t, r.placeholders[id]? = some t := by
  rw [TypeGraph.mem_mentioned]
  constructor
  · rintro ⟨i, hi⟩
    exact ⟨_, hr.node_placeholder i id hi⟩
  · rintro ⟨t, ht⟩
    obtain ⟨i, -, hi⟩ := hr.placeholder_node id t ht
    exact ⟨i, hi⟩

/-- From `r` the records `ids` have been mentioned, and signatures have been stored. -/
structure Takes (ids : List RecordId) (r r' : Resolver) : Prop where
  collecting : r'.Collecting
  grows : r.GrowsTo r'
  registry : r'.graph.registry = r.graph.registry
  /-- Each record is stood in for where it is mentioned first. -/
  mentioned : ∀ p, r'.graph.mentioned.find? p = (r.graph.mentioned ++ ids).find? p

theorem Takes.refl (hr : r.Collecting) : Takes [] r r :=
  ⟨hr, .refl r, rfl, by simp⟩

theorem Takes.trans (h : Takes ids r r') (h' : Takes ids' r' r'') : Takes (ids ++ ids') r r'' where
  collecting := h'.collecting
  grows := h.grows.trans h'.grows
  registry := h'.registry.trans h.registry
  mentioned p := by
    rw [h'.mentioned, List.find?_append, h.mentioned, ← List.find?_append, List.append_assoc]

theorem takes_withPlaceholder (hr : r.Collecting) {id : RecordId}
    (hid : r.placeholders[id]? = none) : Takes [id] r (r.withPlaceholder id) where
  collecting := hr.withPlaceholder hid
  grows := growsTo_withPlaceholder hid
  registry := rfl
  mentioned p := by rw [withPlaceholder, TypeGraph.mentioned_alloc_placeholder]

theorem takes_mentioned (hr : r.Collecting) {id : RecordId} {t : TypeId}
    (hid : r.placeholders[id]? = some t) : Takes [id] r r where
  collecting := hr
  grows := .refl r
  registry := rfl
  mentioned p := by
    have hmem := hr.mem_mentioned.2 ⟨t, hid⟩
    rw [List.find?_append]
    cases hfind : r.graph.mentioned.find? p with
    | some _ => rfl
    | none =>
      have hp := List.find?_eq_none.1 hfind id hmem
      simp [hp]

theorem takes_withSignature (hr : r.Collecting) {signature : StoredSignature}
    (hrefs : ∀ t ∈ signature.typeRefs, r.Held t) : Takes [] r (r.withSignature signature) where
  collecting := hr.withSignature hrefs
  grows := growsTo_withSignature
  registry := rfl
  mentioned p := by rw [List.append_nil]; rfl

/-! ### Computations that take in -/

/-- `run` returns, having mentioned `ids`, and what it returns stands in the relation `post` to every
later state. -/
def Collects {γ : Type} (ids : List RecordId) (run : Resolving γ) (post : Resolver → γ → Prop) :
    Prop :=
  ∀ r : Resolver, r.Collecting → ∃ value r', run.run.run r = (.ok value, r') ∧ Takes ids r r' ∧
    ∀ final, r'.GrowsTo final → post final value

variable {γ δ ι : Type} {run : Resolving γ} {post : Resolver → γ → Prop}

theorem Collects.map (h : Collects ids run post) (f : γ → δ) {post' : Resolver → δ → Prop}
    (hpost : ∀ final value, post final value → post' final (f value)) :
    Collects ids (f <$> run) post' := by
  intro r hr
  obtain ⟨value, r', hrun, htakes, hvalue⟩ := h r hr
  refine ⟨f value, r', ?_, htakes, fun final hfinal => hpost _ _ (hvalue final hfinal)⟩
  rw [run_map, hrun]

theorem Collects.mapM {ids : ι → List RecordId} {run : ι → Resolving γ}
    {post : ι → Resolver → γ → Prop} (l : List ι) (h : ∀ i ∈ l, Collects (ids i) (run i) (post i)) :
    Collects (l.flatMap ids) (l.mapM run) fun final values =>
      List.Forall₂ (fun i value => post i final value) l values := by
  induction l with
  | nil => exact fun r hr => ⟨[], r, rfl, .refl hr, fun _ _ => .nil⟩
  | cons i l ih =>
    intro r hr
    obtain ⟨value, r', hrun, htakes, hvalue⟩ := h i List.mem_cons_self r hr
    obtain ⟨values, r'', hrun', htakes', hvalues⟩ :=
      ih (fun j hj => h j (List.mem_cons_of_mem _ hj)) r' htakes.collecting
    refine ⟨value :: values, r'', ?_, htakes.trans htakes', fun final hfinal => ?_⟩
    · simp only [List.mapM_cons, run_bind, hrun, hrun', run_pure]
    · exact .cons (hvalue final (htakes'.grows.trans hfinal)) (hvalues final hfinal)

/-- The placeholder of record `id` is `t`. -/
def Named (r : Resolver) (id : RecordId) (t : TypeId) : Prop := r.placeholders[id]? = some t

theorem collects_resolve (id : RecordId) :
    Collects [id] (resolve id) fun final t => final.Named id t := by
  intro r hr
  rw [run_resolve, hr.phase]
  cases hid : r.placeholders[id]? with
  | some t => exact ⟨t, r, rfl, takes_mentioned hr hid, fun final h => h.placeholders id t hid⟩
  | none =>
    refine ⟨_, _, rfl, takes_withPlaceholder hr hid, fun final h => h.placeholders id _ ?_⟩
    exact Std.TreeMap.getElem?_insert_self

variable {σ ρ : Type} {onSignature : σ → Resolving ρ} {refs : List (RecordId ⊕ σ)}
  {refsOf : γ → List (TypeId ⊕ ρ)} {rel : (RecordId → TypeId → Prop) → (σ → ρ → Prop) → γ → Prop}

theorem map_isLeft {α β : Type} {A : α → β → Prop} {S : σ → ρ → Prop} {refs : List (α ⊕ σ)}
    {results : List (β ⊕ ρ)} (h : List.Forall₂ (Sum.LiftRel A S) refs results) :
    results.map Sum.isLeft = refs.map Sum.isLeft := by
  induction h with
  | nil => rfl
  | cons h _ ih =>
    have hside := Bool.eq_iff_iff.2 h.isLeft_congr
    simp [hside, ih]

/-- An exchange of numbers for placeholders and of signatures for what they become. -/
theorem collects_exchange (idsOf : σ → List RecordId) (becomes : Resolver → σ → ρ → Prop)
    (hrun : Exchanges (fun _ => resolve) onSignature refs run refsOf rel)
    (hsignature : ∀ s, Collects (idsOf s) (onSignature s) (becomes · s)) :
    Collects (refs.flatMap (Sum.elim (fun id => [id]) idsOf)) run fun final value =>
      rel final.Named (becomes final) value := by
  obtain ⟨places, rfl, build, rfl, hbuild⟩ := hrun
  have hvisit : ∀ place ∈ places, Collects (Sum.elim (fun id => [id]) idsOf place.2)
      (visit (fun _ => resolve) onSignature place)
      fun final result => Sum.LiftRel final.Named (becomes final) place.2 result := by
    rintro ⟨field, id | s⟩ -
    · exact (collects_resolve id).map _ fun _ _ => .inl
    · exact (hsignature s).map _ fun _ _ => .inr
  have hall : Collects (places.flatMap fun place => Sum.elim (fun id => [id]) idsOf place.2) _ _ :=
    (Collects.mapM places hvisit).map build fun final results hresults => by
      have hrefs := (List.forall₂_map_left_iff (f := Prod.snd)).2 hresults
      have hsides : results.map Sum.isLeft = places.map (·.2.isLeft) := by
        simpa [Function.comp_def] using map_isLeft hrefs
      exact (hbuild results hsides).2 _ _ hrefs
  simpa [List.flatMap_map] using hall

/-! ### Signature trees -/

/-- The signature at handle `s`. -/
def Stored (r : Resolver) (signature : StoredSignature) (s : SignatureId) : Prop :=
  r.graph.SignatureAt s signature

theorem collects_header (header : SignatureHeader RecordId) :
    Collects header.mentions (header.traverseInOrder fun _ => resolve) fun final header' =>
      header.Related final.Named header' := by
  have h := collects_exchange Empty.elim (fun _ _ _ => True)
    (header.exchanges (fun _ => resolve) (Empty.elim : Empty → Resolving Empty)) nofun
  simpa [List.flatMap_map] using h

theorem held_of_named {r : Resolver} {ids : List RecordId} {ts : List TypeId}
    (h : List.Forall₂ r.Named ids ts) : ∀ t ∈ ts, r.Held t := by
  intro t ht
  obtain ⟨id, -, hid⟩ := exists_of_forall₂ h ht
  exact ⟨id, hid⟩

theorem run_addSignature_of_collecting (hr : r.Collecting) (signature : StoredSignature) :
    (addSignature signature).run.run r =
      (.ok (r.graph.allocSignature signature).1, r.withSignature signature) := by
  rw [run_addSignature, if_neg (by simp [hr.phase])]

theorem stored_withSignature (r : Resolver) (signature : StoredSignature) :
    (r.withSignature signature).Stored signature (r.graph.allocSignature signature).1 :=
  ⟨r.graph.signatureCount, rfl,
    by simp [withSignature, TypeGraph.allocSignature, TypeGraph.signatureCount]⟩

mutual

theorem collects_tree : ∀ tree : SignatureTree RecordId,
    Collects tree.mentions (tree.traverse (fun _ => resolve) addSignature) fun final s =>
      tree.Becomes final.Named final.Stored s
  | .node header target unions => by
    intro r hr
    obtain ⟨target', r₁, hrun₁, htakes₁, htarget⟩ := collects_target target r hr
    obtain ⟨unions', r₂, hrun₂, htakes₂, hunions⟩ := collects_trees unions r₁ htakes₁.collecting
    obtain ⟨header', r₃, hrun₃, htakes₃, hheader⟩ :=
      collects_header header r₂ htakes₂.collecting
    have hr₃ := htakes₃.collecting
    have hrefs := held_of_named (hheader r₃ (.refl r₃)).typeRefs
    have htakes₄ : Takes [] r₃ (r₃.withSignature ⟨header', target', unions'⟩) :=
      takes_withSignature hr₃ hrefs
    refine ⟨(r₃.graph.allocSignature ⟨header', target', unions'⟩).1,
      r₃.withSignature ⟨header', target', unions'⟩, ?_, ?_,
      fun final hfinal => ⟨⟨header', target', unions'⟩, ?_, ?_, ?_, ?_⟩⟩
    · simp only [SignatureTree.traverse, run_bind, hrun₁, hrun₂, hrun₃,
        run_addSignature_of_collecting hr₃]
    · have htakes := htakes₁.trans (htakes₂.trans (htakes₃.trans htakes₄))
      rwa [SignatureTree.mentions_node, ← List.append_nil header.mentions]
    · exact hfinal.signatures _ _ (stored_withSignature r₃ _)
    · exact hheader final (htakes₄.grows.trans hfinal)
    · exact htarget final (htakes₂.grows.trans (htakes₃.grows.trans (htakes₄.grows.trans hfinal)))
    · exact hunions final (htakes₃.grows.trans (htakes₄.grows.trans hfinal))

theorem collects_target : ∀ target : Option (SignatureTree RecordId),
    Collects (SignatureTree.mentionsOfTarget target)
      (SignatureTree.traverseTarget (fun _ => resolve) addSignature target) fun final s =>
      SignatureTree.targetBecomes final.Named final.Stored target s
  | none => fun r hr => ⟨none, r, rfl, .refl hr, fun _ _ => rfl⟩
  | some tree => (collects_tree tree).map some fun _ _ h => ⟨_, rfl, h⟩

theorem collects_trees : ∀ trees : List (SignatureTree RecordId),
    Collects (SignatureTree.mentionsOfList trees)
      (SignatureTree.traverseList (fun _ => resolve) addSignature trees) fun final ss =>
      SignatureTree.listBecomes final.Named final.Stored trees ss
  | [] => fun r hr => ⟨[], r, rfl, .refl hr, fun _ _ => rfl⟩
  | tree :: trees => by
    intro r hr
    obtain ⟨first, r₁, hrun₁, htakes₁, hfirst⟩ := collects_tree tree r hr
    obtain ⟨rest, r₂, hrun₂, htakes₂, hrest⟩ := collects_trees trees r₁ htakes₁.collecting
    refine ⟨first :: rest, r₂, ?_, htakes₁.trans htakes₂, fun final hfinal => ?_⟩
    · simp only [SignatureTree.traverseList, run_bind, hrun₁, hrun₂, run_pure]
    · exact ⟨first, rest, rfl, hfirst final (htakes₂.grows.trans hfinal), hrest final hfinal⟩

end

end Resolver

end TypeEnv
