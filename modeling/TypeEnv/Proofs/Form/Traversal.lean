import TypeEnv.Proofs.Form.Related
import Mathlib.Tactic.Choose

/-! The law of the traversals, in any lawful monad: a traversal visits the references of a form in
the order in which they are listed, each once, and what it returns is the form with the results in
their places. Traversals of parts are put together by their binds, so the law of a form follows the
fields of the form. What is done with a nested signature is left open. -/

namespace TypeEnv

variable {α β σ ρ γ δ ι κ ο : Type} {m : Type → Type} [Monad m]

theorem getLeft?_comp_inl : (Sum.getLeft? ∘ Sum.inl (β := ρ) : β → Option β) = some := rfl

theorem getRight?_comp_inr : (Sum.getRight? ∘ Sum.inr (α := β) : ρ → Option ρ) = some := rfl

theorem eq_map_inl {n : Nat} {results : List (β ⊕ ρ)}
    (h : results.map Sum.isLeft = List.replicate n true) :
    ∃ values : List β, results = values.map .inl ∧ values.length = n := by
  induction results generalizing n with
  | nil => exact ⟨[], rfl, by simpa using congrArg List.length h⟩
  | cons result results ih =>
    rcases n with _ | n
    · simp at h
    · rcases result with b | s
      · obtain ⟨values, rfl, rfl⟩ := ih (n := n) (by simpa [List.replicate_succ] using h)
        exact ⟨b :: values, by simp⟩
      · simp [List.replicate_succ] at h

theorem eq_map_inr {n : Nat} {results : List (β ⊕ ρ)}
    (h : results.map Sum.isLeft = List.replicate n false) :
    ∃ values : List ρ, results = values.map .inr ∧ values.length = n := by
  induction results generalizing n with
  | nil => exact ⟨[], rfl, by simpa using congrArg List.length h⟩
  | cons result results ih =>
    rcases n with _ | n
    · simp at h
    · rcases result with b | s
      · simp [List.replicate_succ] at h
      · obtain ⟨values, rfl, rfl⟩ := ih (n := n) (by simpa [List.replicate_succ] using h)
        exact ⟨s :: values, by simp⟩

/-- What a traversal does at a reference, which comes with the field it stands in. -/
def visit (onType : String → α → m β) (onSignature : σ → m ρ) : String × (α ⊕ σ) → m (β ⊕ ρ)
  | (field, .inl type) => .inl <$> onType field type
  | (_, .inr signature) => .inr <$> onSignature signature

/-- `run` visits `places` in turn and builds what it returns from the results. Results that are on
the same sides as the references make `post` hold. -/
def Traverses (onType : String → α → m β) (onSignature : σ → m ρ)
    (places : List (String × (α ⊕ σ))) (run : m γ) (post : List (β ⊕ ρ) → γ → Prop) : Prop :=
  ∃ build : List (β ⊕ ρ) → γ, run = build <$> places.mapM (visit onType onSignature) ∧
    ∀ results, results.map Sum.isLeft = places.map (·.2.isLeft) → post results (build results)

/-- What comes after a run over a list can count on one result for each entry. -/
theorem mapM_bind_congr [LawfulMonad m] {f : ι → m ο} {l : List ι} {next next' : List ο → m γ}
    (h : ∀ results, results.length = l.length → next results = next' results) :
    l.mapM f >>= next = l.mapM f >>= next' := by
  induction l generalizing next next' with
  | nil => simpa using h [] rfl
  | cons a l ih =>
    simp only [List.mapM_cons, bind_assoc, pure_bind]
    congr 1; funext b
    exact ih fun results hr => h (b :: results) (by simp [hr])

/-! ### Entries of a map -/

namespace OrderedMap

variable [Inhabited β]

/-- The entries with other values in their places. -/
def refill : List (κ × α) → List β → List (κ × β)
  | [], _ => []
  | entry :: entries, values => (entry.1, values.headD default) :: refill entries values.tail

theorem keys_refill (entries : List (κ × α)) (values : List β) :
    (refill entries values).map Prod.fst = entries.map Prod.fst := by
  induction entries generalizing values with
  | nil => rfl
  | cons entry entries ih => simp [refill, ih]

theorem values_refill (entries : List (κ × α)) (values : List β)
    (h : values.length = entries.length) : (refill entries values).map Prod.snd = values := by
  induction entries generalizing values with
  | nil => simpa [refill, eq_comm] using h
  | cons entry entries ih =>
    rcases values with _ | ⟨value, values⟩
    · simp at h
    · simp [refill, ih values (by simpa using h)]

theorem traverseEntries_eq [LawfulMonad m] (f : κ → α → m β) (entries : List (κ × α)) :
    traverseEntries f entries =
      (fun values => ⟨refill entries values, keys_refill entries values⟩) <$>
        entries.mapM fun entry => f entry.1 entry.2 := by
  induction entries with
  | nil => simp [traverseEntries, refill]
  | cons entry entries ih =>
    simp only [traverseEntries, ih, List.mapM_cons, map_eq_pure_bind, bind_assoc, pure_bind]
    rfl

theorem traverse_eq [LawfulMonad m] (f : κ → α → m β) (x : OrderedMap κ α) :
    x.traverse f = (fun values => ⟨refill x.entries values, by
      rw [keys_refill]; exact x.nodup_keys⟩) <$> x.entries.mapM fun entry => f entry.1 entry.2 := by
  simp only [OrderedMap.traverse, traverseEntries_eq, map_eq_pure_bind, bind_assoc, pure_bind]

end OrderedMap

namespace Traverses

variable {onType : String → α → m β} {onSignature : σ → m ρ}
  {places places' : List (String × (α ⊕ σ))} {run : m γ} {post post' : List (β ⊕ ρ) → γ → Prop}

theorem imp (h : Traverses onType onSignature places run post)
    (himp : ∀ results value, post results value → post' results value) :
    Traverses onType onSignature places run post' := by
  obtain ⟨build, hrun, hpost⟩ := h
  exact ⟨build, hrun, fun results hr => himp _ _ (hpost results hr)⟩

theorem length (h : Traverses onType onSignature places run post) :
    Traverses onType onSignature places run fun results value =>
      results.length = places.length ∧ post results value := by
  obtain ⟨build, hrun, hpost⟩ := h
  exact ⟨build, hrun, fun results hr => ⟨by simpa using congrArg List.length hr, hpost results hr⟩⟩

variable [LawfulMonad m]

theorem pure (value : γ) : Traverses onType onSignature [] (Pure.pure value : m γ)
    fun results value' => results = [] ∧ value' = value :=
  ⟨fun _ => value, by simp, fun results h => by simpa using h⟩

theorem bind {next : γ → m δ} {post' : γ → List (β ⊕ ρ) → δ → Prop}
    (first : Traverses onType onSignature places run post)
    (rest : ∀ value, Traverses onType onSignature places' (next value) (post' value)) :
    Traverses onType onSignature (places ++ places') (run >>= next) fun results value' =>
      ∃ r r' value, results = r ++ r' ∧ post r value ∧ post' value r' value' := by
  obtain ⟨build, rfl, hpost⟩ := first
  choose build' hnext hpost' using rest
  refine ⟨fun results => build' (build (results.take places.length)) (results.drop places.length),
    ?_, ?_⟩
  · simp only [hnext, List.mapM_append, map_eq_pure_bind, bind_assoc, pure_bind]
    apply mapM_bind_congr
    intro results hr
    simp [← hr]
  · intro results hr
    rw [List.map_append] at hr
    refine ⟨_, _, _, (List.take_append_drop places.length results).symm, hpost _ ?_, hpost' _ _ ?_⟩
    · simp [List.map_take, hr]
    · simp [List.map_drop, hr]

theorem map (h : Traverses onType onSignature places run post) (f : γ → δ) :
    Traverses onType onSignature places (f <$> run) fun results value' =>
      ∃ value, post results value ∧ value' = f value := by
  obtain ⟨build, rfl, hpost⟩ := h
  exact ⟨fun results => f (build results), by simp, fun results hr => ⟨_, hpost results hr, rfl⟩⟩

/-! ### References of one sort -/

theorem type [Inhabited β] (field : String) (a : α) :
    Traverses onType onSignature [(field, .inl a)] (onType field a)
      fun results b => results = [.inl b] := by
  refine ⟨fun results => (results.head?.bind Sum.getLeft?).getD default, ?_, ?_⟩
  · simp [visit]
  · rintro (_ | ⟨b | s, _ | _⟩) h <;> simp_all

theorem each (l : List ι) (field : ι → String) (ref : ι → α) (put : ι → β → δ) :
    Traverses onType onSignature (l.map fun i => (field i, .inl (ref i)))
      (l.mapM fun i => do return put i (← onType (field i) (ref i)))
      fun results values => ∃ bs : List β,
        results = bs.map .inl ∧ bs.length = l.length ∧ values = List.zipWith put l bs := by
  refine ⟨fun results => List.zipWith put l (results.filterMap Sum.getLeft?), ?_, ?_⟩
  · induction l with
    | nil => simp
    | cons i l ih =>
      simp only [List.map_cons, List.mapM_cons, ih, visit]
      simp
  · intro results hr
    have hside : results.map Sum.isLeft = List.replicate l.length true := by
      simp [hr, List.map_map, Function.comp_def, List.map_const']
    obtain ⟨bs, rfl, hlen⟩ := eq_map_inl hside
    exact ⟨bs, rfl, hlen, by simp [getLeft?_comp_inl]⟩

theorem fields (as : List (String × α)) :
    Traverses onType onSignature (as.map fun a => (a.1, .inl a.2)) (as.mapM fun a => onType a.1 a.2)
      fun results bs => results = bs.map .inl ∧ bs.length = as.length := by
  have h := (each as Prod.fst Prod.snd fun _ b => b : Traverses onType onSignature _ _ _)
  simp only [bind_pure] at h
  refine h.imp ?_
  rintro _ _ ⟨bs, rfl, hlen, rfl⟩
  have hzip : List.zipWith (fun _ b => b) as bs = bs := by
    simpa [List.zip, List.map_zipWith] using List.map_snd_zip (Nat.le_of_eq hlen)
  exact ⟨by rw [hzip], by rw [hzip, hlen]⟩

theorem types (field : String) (as : List α) :
    Traverses onType onSignature (as.map fun a => (field, .inl a)) (as.mapM (onType field))
      fun results bs => results = bs.map .inl ∧ bs.length = as.length := by
  simpa [Function.comp_def] using
    (fields (as.map (field, ·)) : Traverses onType onSignature _ _ _)

theorem signatures (ss : List σ) :
    Traverses onType onSignature (ss.map fun s => ("", .inr s)) (ss.mapM onSignature)
      fun results rs => results = rs.map .inr ∧ rs.length = ss.length := by
  refine ⟨fun results => results.filterMap Sum.getRight?, ?_, ?_⟩
  · induction ss with
    | nil => simp
    | cons s ss ih => simp [visit, ih]
  · intro results hr
    have hside : results.map Sum.isLeft = List.replicate ss.length false := by
      simp [hr, List.map_map, Function.comp_def, List.map_const']
    obtain ⟨values, rfl, hlen⟩ := eq_map_inr hside
    simpa [getRight?_comp_inr] using hlen

theorem optional (field : String) (a : Option α) :
    Traverses onType onSignature (a.toList.map fun a => (field, .inl a)) (a.mapM (onType field))
      fun results b => results = b.toList.map .inl ∧ b.toList.length = a.toList.length := by
  refine ⟨fun results => results.head?.bind Sum.getLeft?, ?_, ?_⟩
  · cases a <;> simp [visit]
  · cases a <;> rintro (_ | ⟨b | s, _ | _⟩) h <;> simp_all

theorem properties [Inhabited β] (field : String → String) (x : OrderedMap String α) :
    Traverses onType onSignature (x.entries.map fun e => (field e.1, .inl e.2))
      (x.traverse fun name => onType (field name))
      fun results y => results = y.values.map .inl ∧ y.keys = x.keys := by
  have h := (fields (x.entries.map fun e => (field e.1, e.2)) :
    Traverses onType onSignature _ _ _).map fun values =>
      (⟨OrderedMap.refill x.entries values, by
        rw [OrderedMap.keys_refill]; exact x.nodup_keys⟩ : OrderedMap String β)
  simp only [List.map_map, List.mapM_map, Function.comp_def] at h
  rw [OrderedMap.traverse_eq]
  refine h.imp ?_
  rintro _ _ ⟨values, ⟨rfl, hlen⟩, rfl⟩
  have hvalues := OrderedMap.values_refill x.entries values (by simpa using hlen)
  exact ⟨by rw [OrderedMap.values, hvalues], OrderedMap.keys_refill _ _⟩

end Traverses

end TypeEnv
