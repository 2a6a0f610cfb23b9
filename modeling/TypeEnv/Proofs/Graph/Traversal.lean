import TypeEnv.Proofs.Graph.Isomorphism
import TypeEnv.Proofs.Record.Rows

/-! Listing the types that a node or a signature refers to, and exchanging them, are two halves of one
traversal. Exchanging visits the types in the order in which they are listed, and the results come to
stand in their places: what is returned lists them in that order, with the same signatures, and is the
same in everything else. Since that determines it, exchanging each type for itself changes nothing, and
two exchanges in turn are one. -/

namespace TypeEnv

variable {α β σ ρ : Type} {A A' : α → β → Prop} {S : σ → ρ → Prop}

/-! ### Determined by the references -/

theorem OrderedMap.Related.eq {κ : Type} {x y : OrderedMap κ α} (h : x.Related (· = ·) y) : x = y := by
  obtain ⟨entries, _⟩ := x
  obtain ⟨entries', _⟩ := y
  have hentries : List.Forall₂ (· = ·) entries entries' := h.imp fun _ _ hpq => Prod.ext hpq.1 hpq.2
  obtain rfl := List.forall₂_eq_eq_eq ▸ hentries
  rfl

theorem eq_of_forall₂ {l l' : List α} (h : List.Forall₂ (· = ·) l l') : l = l' :=
  List.forall₂_eq_eq_eq ▸ h

theorem eq_of_rel {a b : Option α} (h : Option.Rel (· = ·) a b) : a = b := by
  cases h with
  | none => rfl
  | some h => rw [h]

theorem Shape.Related.eq {x y : Shape α σ} (h : x.Related (· = ·) (· = ·) y) : x = y := by
  obtain ⟨h₁, h₂, h₃, h₄, h₅, h₆, h₇⟩ := h
  cases x
  cases y
  simp only [Shape.mk.injEq]
  exact ⟨eq_of_forall₂ h₁, eq_of_forall₂ h₂, h₃.eq, eq_of_forall₂ h₄, eq_of_forall₂ h₅, eq_of_rel h₆,
    eq_of_rel h₇⟩

theorem ClassForm.Related.eq {x y : ClassForm α σ} (h : x.Related (· = ·) (· = ·) y) : x = y := by
  obtain ⟨h₁, h₂, h₃, h₄, h₅⟩ := h
  cases x
  cases y
  simp only [ClassForm.mk.injEq]
  exact ⟨h₁.eq, h₂.eq, h₃.eq, eq_of_rel h₄, eq_of_forall₂ h₅⟩

theorem TypeForm.Related.eq {x y : TypeForm α σ} (h : x.Related (· = ·) (· = ·) y) : x = y := by
  cases h with
  | simple | stringLiteral | booleanLiteral | numberLiteral | anonymous => rfl
  | interface h => rw [h.eq]
  | classDeclaration h => rw [h.eq]
  | classInstance h | index h => rw [h]
  | generic h h' h'' => rw [h.eq, h', eq_of_forall₂ h'']
  | reference h h' => rw [h, eq_of_forall₂ h']
  | tuple _ h | union h | intersection h => rw [eq_of_forall₂ h]
  | typeParameter h | thisType h => rw [eq_of_rel h]
  | indexedAccess h h' => rw [h, h']

theorem SignatureHeader.Related.eq {x y : SignatureHeader α} (h : x.Related (· = ·) y) : x = y := by
  obtain ⟨h₁, h₂, h₃, h₄, h₅, h₆, h₇⟩ := h
  have hparameters : x.parameters = y.parameters :=
    eq_of_forall₂ (h₂.imp fun p q hpq => by cases p; cases q; simpa using hpq)
  cases x
  cases y
  simp only [SignatureHeader.mk.injEq]
  exact ⟨eq_of_forall₂ h₁, hparameters, h₃, h₄, h₅, h₆, eq_of_rel h₇⟩

theorem forall₂_liftRel_left {refs : List (α ⊕ σ)} {refs' : List (β ⊕ ρ)}
    (h : List.Forall₂ (Sum.LiftRel A S) refs refs')
    (hleft : List.Forall₂ A' (refs.filterMap Sum.getLeft?) (refs'.filterMap Sum.getLeft?)) :
    List.Forall₂ (Sum.LiftRel A' S) refs refs' := by
  induction h with
  | nil => exact .nil
  | cons hab _ ih =>
    cases hab with
    | inl _ =>
      obtain _ | ⟨hab, hleft⟩ := hleft
      exact .cons (.inl hab) (ih hleft)
    | inr hsr => exact .cons (.inr hsr) (ih hleft)

theorem TypeForm.Related.of_typeRefs {x : TypeForm α σ} {y : TypeForm β ρ} (h : x.Related A S y)
    (hrefs : List.Forall₂ A' x.typeRefs y.typeRefs) : x.Related A' S y :=
  h.of_references (forall₂_liftRel_left h.references hrefs)

theorem SignatureHeader.Related.of_typeRefs {x : SignatureHeader α} {y : SignatureHeader β}
    (h : x.Related A y) (hrefs : List.Forall₂ A' x.typeRefs y.typeRefs) : x.Related A' y := by
  have h₁ := h.typeParameters.length_eq
  have h₂ := h.parameters.length_eq
  rw [SignatureHeader.typeRefs, SignatureHeader.typeRefs, forall₂_append_iff (by simp [h₁, h₂]),
    forall₂_append_iff (by simp [h₁, h₂]), forall₂_append_iff h₁.symm, List.forall₂_map_left_iff,
    List.forall₂_map_right_iff, List.forall₂_cons, forall₂_toList] at hrefs
  obtain ⟨⟨⟨htypeParameters, htypes⟩, hreturns, -⟩, hisolated⟩ := hrefs
  exact { h with
    typeParameters := htypeParameters
    parameters := h.parameters.mp (fun _ _ hpq htype => ⟨hpq.1, htype⟩) htypes
    returns := hreturns
    isolated := hisolated }

/-! ### Results in their places -/

/-- The references with other types in their places. -/
def weave : List (α ⊕ σ) → List β → List (β ⊕ σ)
  | .inl _ :: refs, b :: bs => .inl b :: weave refs bs
  | .inr s :: refs, bs => .inr s :: weave refs bs
  | _, _ => []

theorem weave_spec {refs : List (α ⊕ σ)} {bs : List β}
    (h : bs.length = (refs.filterMap Sum.getLeft?).length) :
    (weave refs bs).filterMap Sum.getLeft? = bs ∧
      List.Forall₂ (Sum.LiftRel (fun _ _ => True) (· = ·)) refs (weave refs bs) := by
  induction refs generalizing bs with
  | nil => simpa [weave, eq_comm] using h
  | cons ref refs ih =>
    rcases ref with a | s
    · rcases bs with _ | ⟨b, bs⟩
      · simp at h
      · obtain ⟨htypes, hrefs⟩ := ih (Nat.succ.inj h)
        exact ⟨by simp [weave, htypes], .cons (.inl trivial) hrefs⟩
    · have hweave : weave (.inr s :: refs) bs = .inr s :: weave refs bs := by cases bs <;> rfl
      obtain ⟨htypes, hrefs⟩ := ih h
      rw [hweave]
      exact ⟨htypes, .cons (.inr rfl) hrefs⟩

section Monadic

variable {γ : Type} {m : Type → Type} [Monad m] [LawfulMonad m]

theorem mapM_visit (f : α → m β) (places : List (String × (α ⊕ σ))) :
    places.mapM (visit (fun _ => f) (pure : σ → m σ)) =
      weave (places.map Prod.snd) <$> ((places.map Prod.snd).filterMap Sum.getLeft?).mapM f := by
  induction places with
  | nil => simp [weave]
  | cons place places ih =>
    obtain ⟨field, a | s⟩ := place
    · simp [visit, weave, ih]
    · simp [visit, weave, ih, List.filterMap_cons]

/-- Where signatures are kept, only the types are visited. -/
theorem Exchanges.types_only {f : α → m β} {refs : List (α ⊕ σ)} {run : m γ} {refsOf : γ → List (β ⊕ σ)}
    {rel : (α → β → Prop) → (σ → σ → Prop) → γ → Prop}
    (h : Exchanges (fun _ => f) pure refs run refsOf rel) :
    ∃ put : List β → γ, run = put <$> (refs.filterMap Sum.getLeft?).mapM f ∧
      ∀ bs, bs.length = (refs.filterMap Sum.getLeft?).length →
        (refsOf (put bs)).filterMap Sum.getLeft? = bs ∧ rel (fun _ _ => True) (· = ·) (put bs) := by
  obtain ⟨places, rfl, build, hrun, hpost⟩ := h
  refine ⟨fun bs => build (weave (places.map Prod.snd) bs), ?_, fun bs hlength => ?_⟩
  · rw [hrun, mapM_visit, Functor.map_map]
  · obtain ⟨htypes, hrefs⟩ := weave_spec hlength
    have hside : (weave (places.map Prod.snd) bs).map Sum.isLeft = places.map (·.2.isLeft) := by
      have hmap := map_eq_of_forall₂ (f := Sum.isLeft) (g := Sum.isLeft)
        (hrefs.imp fun _ _ hab => by cases hab <;> rfl)
      rw [← hmap, List.map_map]
      rfl
    obtain ⟨hrefsOf, hrel⟩ := hpost _ hside
    exact ⟨hrefsOf ▸ htypes, hrel _ _ hrefs⟩

theorem SignatureHeader.exchanges_mapTypesM [Inhabited β] (f : α → m β) (onSignature : σ → m ρ)
    (x : SignatureHeader α) :
    Exchanges (fun _ => f) onSignature (x.typeRefs.map .inl) (x.mapTypesM f)
      (fun y => y.typeRefs.map .inl) fun A _ y => x.Related A y := by
  refine ⟨_, ?_, (Traverses.types "" x.typeParameters |>.bind fun _ =>
    .bind (.each x.parameters (fun _ => "") (·.type) fun p b => (⟨p.name, b⟩ : Parameter β)) fun _ =>
    .bind (.type "" _) fun _ => .bind (.optional "" _) fun _ => .pure _).imp ?_⟩
  · simp [SignatureHeader.typeRefs, Function.comp_def]
  · rintro _ _ ⟨_, _, _, rfl, ⟨rfl, h1⟩, _, _, _, rfl, ⟨bs, rfl, h2, rfl⟩, _, _, _, rfl, rfl,
      _, _, _, rfl, ⟨rfl, h3⟩, rfl, rfl⟩
    have htypes := types_retype h2
    refine ⟨?_, fun A S h => ?_⟩
    · change List.map _ (_ ++ (retype x.parameters bs).map (·.type) ++ _ ++ _) = _
      rw [htypes]
      simp
    simp (disch := simp [*]) only [SignatureHeader.typeRefs, List.map_append, List.append_assoc,
      List.map_cons, forall₂_append_iff, forall₂_inl, forall₂_toList, List.append_nil,
      List.singleton_append, List.forall₂_cons, Sum.liftRel_inl_inl] at h
    obtain ⟨r1, r2, r3, r4⟩ := h
    exact ⟨r1, retype_related r2, r3, rfl, rfl, rfl, r4⟩

end Monadic

/-! ### Lawful traversals -/

/-- Something that refers to types and signatures, and whose types can be exchanged. -/
structure Traversal (γ : Type) where
  types : γ → List TypeId
  signatures : γ → List SignatureId
  exchange {m : Type → Type} [Monad m] : (TypeId → m TypeId) → γ → m γ
  /-- The same but for the types referred to. -/
  Alike : γ → γ → Prop

def Node.traversal : Traversal Node where
  types := Node.typeRefs
  signatures := Node.signatureRefs
  exchange := Node.mapTypesM
  Alike := Node.Related id (fun _ _ => True) (· = ·)

def StoredSignature.traversal : Traversal StoredSignature where
  types := Signature.typeRefs
  signatures := Signature.signatureRefs
  exchange := Signature.mapTypesM
  Alike := Signature.Related (fun _ _ => True) (· = ·)

namespace Traversal

variable {γ : Type} (T : Traversal γ) (x : γ)

/-- Types exchanged by a function that has no state. -/
def map (f : TypeId → TypeId) : γ := Id.run (T.exchange (pure <| f ·) x)

/-- Listing and exchanging the types of `x` are one traversal. -/
structure Lawful : Prop where
  /-- The listed types are visited in turn, and then the results are listed. -/
  visits : ∀ (σ : Type) (f : TypeId → StateM σ TypeId) (s : σ),
    ((T.types x).mapM f).run s = (T.types ((T.exchange f x).run s).1, ((T.exchange f x).run s).2)
  signatures_eq : ∀ (σ : Type) (f : TypeId → StateM σ TypeId) (s : σ),
    T.signatures ((T.exchange f x).run s).1 = T.signatures x
  alike : ∀ (σ : Type) (f : TypeId → StateM σ TypeId) (s : σ), T.Alike x ((T.exchange f x).run s).1
  map_id : T.map x id = x
  map_map : ∀ f g : TypeId → TypeId, T.map (T.map x f) g = T.map x (g ∘ f)

/-- An exchange runs `f` on the listed types, and puts what it gets in their places. -/
def Puts {m : Type → Type} [Monad m] (f : TypeId → m TypeId) : Prop :=
  ∃ put : List TypeId → γ, T.exchange f x = put <$> (T.types x).mapM f ∧
    ∀ ts, ts.length = (T.types x).length → T.types (put ts) = ts ∧ T.Alike x (put ts)

variable {T x}

theorem length_mapM_run {σ : Type} (f : α → StateM σ β) (l : List α) (s : σ) :
    ((l.mapM f).run s).1.length = l.length := by
  induction l generalizing s with
  | nil => rfl
  | cons a l ih =>
    rw [List.mapM_cons]
    exact congrArg Nat.succ (ih ((f a).run s).2)

theorem Puts.run {σ : Type} {f : TypeId → StateM σ TypeId} (h : T.Puts x f) (s : σ) :
    ((T.types x).mapM f).run s = (T.types ((T.exchange f x).run s).1, ((T.exchange f x).run s).2) ∧
      T.Alike x ((T.exchange f x).run s).1 := by
  obtain ⟨put, hexchange, hput⟩ := h
  have hrun : (T.exchange f x).run s =
      (put (((T.types x).mapM f).run s).1, (((T.types x).mapM f).run s).2) := by
    rw [hexchange]
    rfl
  obtain ⟨htypes, halike⟩ := hput _ (length_mapM_run f (T.types x) s)
  rw [hrun]
  exact ⟨Prod.ext htypes.symm rfl, halike⟩

theorem Puts.map {f : TypeId → TypeId} (h : T.Puts x (m := Id) (pure <| f ·)) :
    T.types (T.map x f) = (T.types x).map f ∧ T.Alike x (T.map x f) := by
  obtain ⟨put, hexchange, hput⟩ := h
  have hmap : T.map x f = put ((T.types x).map f) := by
    rw [Traversal.map, hexchange, List.mapM_pure]
    rfl
  rw [hmap]
  exact hput _ (List.length_map f)

variable (T) in
/-- Being alike is an equivalence that keeps signatures, and alike values with the same types are
equal; exchanges put their results in place. -/
structure Places : Prop where
  equivalence : Equivalence T.Alike
  signatures_eq : ∀ x y, T.Alike x y → T.signatures y = T.signatures x
  eq_of_types : ∀ x y, T.Alike x y → T.types x = T.types y → x = y
  puts : ∀ (x : γ) (m : Type → Type) [Monad m] [LawfulMonad m] (f : TypeId → m TypeId), T.Puts x f

theorem Places.lawful (h : T.Places) (x : γ) : T.Lawful x where
  visits σ f s := ((h.puts x _ f).run s).1
  signatures_eq σ f s := h.signatures_eq x _ ((h.puts x _ f).run s).2
  alike σ f s := ((h.puts x _ f).run s).2
  map_id := by
    obtain ⟨htypes, halike⟩ := (h.puts x Id (pure <| id ·)).map
    refine (h.eq_of_types x _ halike ?_).symm
    rw [htypes, List.map_id]
  map_map f g := by
    obtain ⟨htypes, halike⟩ := (h.puts x Id (pure <| f ·)).map
    obtain ⟨htypes', halike'⟩ := (h.puts (T.map x f) Id (pure <| g ·)).map
    obtain ⟨htypes'', halike''⟩ := (h.puts x Id (pure <| (g ∘ f) ·)).map
    have hequivalence := h.equivalence
    refine h.eq_of_types _ _ (hequivalence.trans (hequivalence.symm halike')
      (hequivalence.trans (hequivalence.symm halike) halike'')) ?_
    rw [htypes', htypes, htypes'', List.map_map]

end Traversal

/-! ### Nodes and signatures -/

theorem TypeForm.puts {m : Type → Type} [Monad m] [LawfulMonad m] (f : TypeId → m TypeId)
    (x : TypeForm TypeId SignatureId) :
    ∃ put : List TypeId → TypeForm TypeId SignatureId, x.mapTypesM f = put <$> x.typeRefs.mapM f ∧
      ∀ ts, ts.length = x.typeRefs.length →
        (put ts).typeRefs = ts ∧ x.Related (fun _ _ => True) (· = ·) (put ts) :=
  (x.exchanges (fun _ => f) pure).types_only

theorem SignatureHeader.puts {m : Type → Type} [Monad m] [LawfulMonad m] (f : TypeId → m TypeId)
    (x : SignatureHeader TypeId) :
    ∃ put : List TypeId → SignatureHeader TypeId, x.mapTypesM f = put <$> x.typeRefs.mapM f ∧
      ∀ ts, ts.length = x.typeRefs.length →
        (put ts).typeRefs = ts ∧ x.Related (fun _ _ => True) (put ts) := by
  have hleft : ∀ ts : List TypeId,
      (ts.map (Sum.inl (β := SignatureId))).filterMap Sum.getLeft? = ts := by
    intro ts
    rw [List.filterMap_map, getLeft?_comp_inl, List.filterMap_some]
  have h := (x.exchanges_mapTypesM f (pure : SignatureId → m SignatureId)).types_only
  simpa only [hleft] using h

theorem TypeForm.eq_of_typeRefs {x y : TypeForm TypeId SignatureId}
    (h : x.Related (fun _ _ => True) (· = ·) y) (hrefs : x.typeRefs = y.typeRefs) : x = y := by
  have hall : List.Forall₂ (· = ·) x.typeRefs y.typeRefs := hrefs ▸ forall₂_eq_self _
  exact (h.of_typeRefs hall).eq

theorem SignatureHeader.eq_of_typeRefs {x y : SignatureHeader TypeId}
    (h : x.Related (fun _ _ => True) y) (hrefs : x.typeRefs = y.typeRefs) : x = y := by
  have hall : List.Forall₂ (· = ·) x.typeRefs y.typeRefs := hrefs ▸ forall₂_eq_self _
  exact (h.of_typeRefs hall).eq

theorem TypeForm.equivalence_related :
    Equivalence fun x y : TypeForm TypeId SignatureId => x.Related (fun _ _ => True) (· = ·) y where
  refl x := x.related_self.imp_mem (fun _ _ _ _ => trivial) fun _ _ _ h => h
  symm h := h.flip.imp_mem (fun _ _ _ h => h) fun _ _ _ h => h.symm
  trans h h' := h.trans (fun _ _ _ _ _ => trivial) (fun _ _ _ p q => p.trans q) h'

theorem SignatureHeader.equivalence_related :
    Equivalence fun x y : SignatureHeader TypeId => x.Related (fun _ _ => True) y where
  refl _ := ⟨List.forall₂_same.2 fun _ _ => trivial, List.forall₂_same.2 fun _ _ => ⟨rfl, trivial⟩, trivial,
    rfl, rfl, rfl, rel_imp (rel_eq_self _) fun _ _ _ => trivial⟩
  symm h := h.flip
  trans h h' := h.trans (fun _ _ _ _ _ => trivial) h'

theorem Node.places : Node.traversal.Places where
  equivalence := by
    have hforms := TypeForm.equivalence_related
    refine ⟨fun node => ?_, fun h => ?_, fun h h' => ?_⟩
    · cases node with
      | form x => exact .form (hforms.refl x)
      | placeholder record => exact .placeholder record
    · cases h with
      | form h => exact .form (hforms.symm h)
      | placeholder record => exact .placeholder record
    · cases h with
      | form h => cases h' with | form h' => exact .form (hforms.trans h h')
      | placeholder record => exact h'
  signatures_eq node node' h := by
    cases h with
    | form h => exact (eq_of_forall₂ h.signatureRefs).symm
    | placeholder record => rfl
  eq_of_types node node' h htypes := by
    cases h with
    | form h => rw [TypeForm.eq_of_typeRefs h htypes]
    | placeholder record => rfl
  puts node m _ _ f := by
    cases node with
    | form x =>
      obtain ⟨put, hrun, hput⟩ := x.puts f
      refine ⟨fun ts => .form (put ts), ?_, fun ts hts => ?_⟩
      · change (do return Node.form (← x.mapTypesM f)) = _
        rw [hrun, bind_pure_comp, Functor.map_map]
        rfl
      · obtain ⟨htypes, hrelated⟩ := hput ts hts
        exact ⟨htypes, .form hrelated⟩
    | placeholder record =>
      refine ⟨fun _ => .placeholder record, ?_, fun ts hts => ?_⟩
      · simp [Node.traversal, Node.typeRefs, Node.mapTypesM]
      · exact ⟨(List.eq_nil_of_length_eq_zero hts).symm, .placeholder record⟩

theorem StoredSignature.places : StoredSignature.traversal.Places where
  equivalence := by
    have hheaders := SignatureHeader.equivalence_related
    refine ⟨fun x => ?_, fun h => ?_, fun h h' => ?_⟩
    · exact ⟨hheaders.refl _, rel_eq_self _, forall₂_eq_self _⟩
    · exact ⟨hheaders.symm h.header, rel_imp (rel_flip h.target) fun _ _ => Eq.symm,
        h.unionSignatures.flip.imp fun _ _ => Eq.symm⟩
    · exact Signature.Related.trans (fun _ _ _ _ _ => trivial) (fun _ _ _ p q => p.trans q) h h'
  signatures_eq x y h := by
    change y.target.toList ++ y.unionSignatures = x.target.toList ++ x.unionSignatures
    rw [eq_of_rel h.target, eq_of_forall₂ h.unionSignatures]
  eq_of_types x y h htypes := by
    have hheader := SignatureHeader.eq_of_typeRefs h.header htypes
    have htarget := eq_of_rel h.target
    have hunions := eq_of_forall₂ h.unionSignatures
    cases x
    cases y
    simp only [Signature.mk.injEq]
    exact ⟨hheader, htarget, hunions⟩
  puts x m _ _ f := by
    obtain ⟨put, hrun, hput⟩ := x.header.puts f
    refine ⟨fun ts => { x with header := put ts }, ?_, fun ts hts => ?_⟩
    · change (do return { x with header := ← x.header.mapTypesM f }) = _
      rw [hrun, bind_pure_comp, Functor.map_map]
      rfl
    · obtain ⟨htypes, hrelated⟩ := hput ts hts
      exact ⟨htypes, hrelated, rel_eq_self _, forall₂_eq_self _⟩

/-- Listing and exchanging types are one lawful traversal of every node and of every signature. -/
theorem lawful_traversals (node : Node) (signature : StoredSignature) :
    Node.traversal.Lawful node ∧ StoredSignature.traversal.Lawful signature :=
  ⟨Node.places.lawful node, StoredSignature.places.lawful signature⟩

/-- References numbered in the order in which they are visited. -/
example :
    let number : TypeId → StateM UInt32 TypeId := fun _ => modifyGet fun n => (⟨n⟩, n + 1)
    let shape : Shape TypeId SignatureId :=
      { typeParameters := [⟨9⟩], callSignatures := [⟨7⟩], stringIndex := some ⟨9⟩ }
    (Node.mapTypesM number (.form (.generic shape ⟨8⟩ [⟨9⟩]))).run 0 =
      (.form (.generic { shape with typeParameters := [⟨0⟩], stringIndex := some ⟨1⟩ } ⟨2⟩ [⟨3⟩]), 4) :=
  rfl

end TypeEnv
