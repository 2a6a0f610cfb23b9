import TypeEnv.Proofs.Resolver.Resolution

/-! Looking records up after the collection has ended. Nothing changes any more: a computation that
only looks up records returns if all of them are registered, and otherwise reports the first that
is not. -/

namespace TypeEnv.Resolver

open Stateful

variable {γ δ ι : Type}

/-- `run` looks up `ids` in turn, and what it returns satisfies `post`. -/
def LooksUp (r : Resolver) (ids : List RecordId) (run : Resolving γ) (post : γ → Prop) : Prop :=
  match r.graph.missing? ids with
  | some id => run.run.run r = (.error (.unresolvedId id), r)
  | none => ∃ value, run.run.run r = (.ok value, r) ∧ post value

variable {r : Resolver} {ids ids' : List RecordId} {run : Resolving γ} {post : γ → Prop}

namespace LooksUp

theorem pure (value : γ) : LooksUp r [] (Pure.pure value) fun value' => value' = value :=
  ⟨value, rfl, rfl⟩

theorem imp {post' : γ → Prop} (h : LooksUp r ids run post)
    (hpost : ∀ value, post value → post' value) : LooksUp r ids run post' := by
  unfold LooksUp at h ⊢
  split
  · next id hid => rwa [hid] at h
  · next hid =>
    rw [hid] at h
    obtain ⟨value, hrun, hvalue⟩ := h
    exact ⟨value, hrun, hpost value hvalue⟩

theorem bind {next : γ → Resolving δ} {post' : γ → δ → Prop} (h : LooksUp r ids run post)
    (h' : ∀ value, LooksUp r ids' (next value) (post' value)) :
    LooksUp r (ids ++ ids') (run >>= next) fun value' => ∃ value, post value ∧ post' value value' := by
  unfold LooksUp at h h' ⊢
  rw [TypeGraph.missing?_append, run_bind]
  cases hid : r.graph.missing? ids with
  | some id =>
    rw [hid] at h
    simp only [h, Option.some_or]
  | none =>
    rw [hid] at h
    obtain ⟨value, hrun, hvalue⟩ := h
    have hnext := h' value
    simp only [hrun, Option.none_or]
    cases hid' : r.graph.missing? ids' with
    | some id => rwa [hid'] at hnext
    | none =>
      rw [hid'] at hnext
      obtain ⟨value', hrun', hvalue'⟩ := hnext
      exact ⟨value', hrun', value, hvalue, hvalue'⟩

theorem map (h : LooksUp r ids run post) (f : γ → δ) :
    LooksUp r ids (f <$> run) fun value' => ∃ value, post value ∧ value' = f value := by
  have hbind := h.bind fun value => LooksUp.pure (f value)
  rwa [List.append_nil, ← map_eq_pure_bind] at hbind

theorem mapM {idsOf : ι → List RecordId} {run : ι → Resolving γ} {post : ι → γ → Prop} (l : List ι)
    (h : ∀ i, LooksUp r (idsOf i) (run i) (post i)) :
    LooksUp r (l.flatMap idsOf) (l.mapM run) fun values => List.Forall₂ post l values := by
  induction l with
  | nil => exact (LooksUp.pure []).imp fun _ hnil => hnil ▸ .nil
  | cons i l ih =>
    have hall := (h i).bind fun value => ih.bind fun values => LooksUp.pure (value :: values)
    rw [List.append_nil] at hall
    rw [List.mapM_cons]
    refine hall.imp ?_
    rintro _ ⟨value, hvalue, values, hvalues, rfl⟩
    exact .cons hvalue hvalues

/-- A fold that looks up one record at each entry. -/
theorem foldlM {idOf : ι → RecordId} {step : δ → ι → Resolving δ} {put : δ → ι → TypeId → δ}
    (l : List ι) (start : δ)
    (h : ∀ value i, LooksUp r [idOf i] (step value i) fun value' =>
      ∃ t, r.graph.registered? (idOf i) = some t ∧ value' = put value i t) :
    LooksUp r (l.map idOf) (l.foldlM step start) fun value => ∃ ts,
      List.Forall₂ (fun i t => r.graph.registered? (idOf i) = some t) l ts ∧
        value = (l.zip ts).foldl (fun value entry => put value entry.1 entry.2) start := by
  induction l generalizing start with
  | nil => exact (LooksUp.pure start).imp fun value hvalue => ⟨[], .nil, hvalue⟩
  | cons i l ih =>
    rw [List.map_cons, ← List.singleton_append, List.foldlM_cons]
    refine ((h start i).bind fun value => ih value).imp ?_
    rintro _ ⟨_, ⟨t, ht, rfl⟩, ts, hts, rfl⟩
    exact ⟨t :: ts, .cons ht hts, rfl⟩

end LooksUp

theorem looksUp_resolve (hr : r.phase = .resolved) (id : RecordId) :
    LooksUp r [id] (resolve id) fun t => r.graph.registered? id = some t := by
  unfold LooksUp
  rw [run_resolve, hr]
  cases hid : r.graph.registered? id with
  | none => simp [TypeGraph.missing?, hid]
  | some t => simp [TypeGraph.missing?, hid]

end TypeEnv.Resolver
