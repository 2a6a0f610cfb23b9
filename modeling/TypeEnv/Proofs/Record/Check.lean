import TypeEnv.Proofs.Ident
import TypeEnv.Proofs.Reading
import TypeEnv.Proofs.Record.Traversal

/-! Which records pass the check of their references: those all of whose numbers, down to the
signatures inside signatures, have 32 bits, and whose tuples have a length of 32 bits. What is checked
mentions the same numbers in the same order. -/

namespace TypeEnv

open Reading RecordId LoadError

/-! ### Exchanges that can fail -/

section Exchanges

variable {α β σ ρ γ ε : Type} {onType : String → α → Except ε β} {onSignature : σ → Except ε ρ}
  {refs : List (α ⊕ σ)} {run : Except ε γ} {refsOf : γ → List (β ⊕ ρ)}
  {rel : (α → β → Prop) → (σ → ρ → Prop) → γ → Prop} {A : α → β → Prop} {S : σ → ρ → Prop}

theorem isLeft_of_visit {place : String × (α ⊕ σ)} {result : β ⊕ ρ}
    (h : visit onType onSignature place = .ok result) : result.isLeft = place.2.isLeft := by
  obtain ⟨field, ref⟩ := place
  cases ref with
  | inl a => obtain ⟨_, -, rfl⟩ := map_eq_ok.1 h; rfl
  | inr s => obtain ⟨_, -, rfl⟩ := map_eq_ok.1 h; rfl

/-- An exchange succeeds when each single one does, and then returns their results. -/
theorem Exchanges.of_ok (h : Exchanges onType onSignature refs run refsOf rel)
    (hType : ∀ field a b, onType field a = .ok b → A a b)
    (hSignature : ∀ s r, onSignature s = .ok r → S s r) {y : γ} (hrun : run = .ok y) :
    List.Forall₂ (Sum.LiftRel A S) refs (refsOf y) ∧ rel A S y := by
  obtain ⟨places, rfl, build, rfl, hpost⟩ := h
  obtain ⟨results, hresults, rfl⟩ := map_eq_ok.1 hrun
  have hvisits := mapM_eq_ok.1 hresults
  have hsides : results.map Sum.isLeft = places.map (·.2.isLeft) := by
    clear hpost hrun hresults
    induction hvisits with
    | nil => rfl
    | cons hvisit _ ih => rw [List.map_cons, List.map_cons, ih, isLeft_of_visit hvisit]
  have hrelated : List.Forall₂ (Sum.LiftRel A S) (places.map Prod.snd) results := by
    rw [List.forall₂_map_left_iff]
    refine hvisits.imp ?_
    rintro ⟨field, a | s⟩ result hvisit
    · obtain ⟨b, hb, rfl⟩ := map_eq_ok.1 hvisit
      exact .inl (hType field a b hb)
    · obtain ⟨r, hr, rfl⟩ := map_eq_ok.1 hvisit
      exact .inr (hSignature s r hr)
  obtain ⟨hrefs, hrel⟩ := hpost results hsides
  rw [hrefs]
  exact ⟨hrelated, hrel A S hrelated⟩

theorem Exchanges.exists_ok (h : Exchanges onType onSignature refs run refsOf rel)
    (hType : ∀ field a, .inl a ∈ refs → ∃ b, onType field a = .ok b)
    (hSignature : ∀ s, .inr s ∈ refs → ∃ r, onSignature s = .ok r) : ∃ y, run = .ok y := by
  obtain ⟨places, rfl, build, rfl, -⟩ := h
  have hvisits : ∀ place ∈ places, ∃ result, visit onType onSignature place = .ok result ∧ True := by
    rintro ⟨field, a | s⟩ hplace
    · obtain ⟨b, hb⟩ := hType field a (List.mem_map_of_mem hplace)
      exact ⟨.inl b, map_eq_ok.2 ⟨b, hb, rfl⟩, trivial⟩
    · obtain ⟨r, hr⟩ := hSignature s (List.mem_map_of_mem hplace)
      exact ⟨.inr r, map_eq_ok.2 ⟨r, hr, rfl⟩, trivial⟩
  obtain ⟨results, hresults, -⟩ := exists_mapM_iff.2 hvisits
  exact ⟨build results, map_eq_ok.2 ⟨results, hresults, rfl⟩⟩

theorem Exchanges.failsWith {P : ε → Prop} (h : Exchanges onType onSignature refs run refsOf rel)
    (hType : ∀ field a, FailsWith P (onType field a))
    (hSignature : ∀ s, FailsWith P (onSignature s)) : FailsWith P run := by
  obtain ⟨places, -, build, rfl, -⟩ := h
  refine (FailsWith.mapM ?_ places).map build
  rintro ⟨field, a | s⟩
  · exact (hType field a).map _
  · exact (hSignature s).map _

end Exchanges

namespace Record

/-! ### Signatures -/

section Signatures

variable {place : String} {tree : SignatureTree Int} {tree' : SignatureTree RecordId}

/-- The check of a signature in a record. -/
def checkSignature (place : String) (tree : SignatureTree Int) :
    Except LoadError (SignatureTree RecordId) :=
  tree.traverse (fun field => RecordId.check s!"{place}.{field}") fun s => return .ofSignature s

/-- A signature that is checked is copied, with records for numbers. -/
theorem checkSignature_becomes (h : checkSignature place tree = .ok tree') : tree.Becomes NumberOf Copied tree' :=
  ((tree.exchanges (fun field => RecordId.check s!"{place}.{field}")
    (Empty.elim : Empty → Except LoadError Empty)).of_ok (A := NumberOf) (S := fun _ _ => False)
    (fun _ _ _ => RecordId.check_eq_ok.1) nofun h).2

theorem checkSignature_mentions (h : checkSignature place tree = .ok tree') :
    List.Forall₂ NumberOf tree.mentions tree'.mentions := by
  have hexchanges := tree.exchanges (fun field => RecordId.check s!"{place}.{field}")
    (Empty.elim : Empty → Except LoadError Empty)
  have hrelated := (hexchanges.of_ok (A := NumberOf) (S := fun _ _ => False)
    (fun _ _ _ => RecordId.check_eq_ok.1) nofun h).1
  exact forall₂_inl.1 hrelated

theorem exists_checkSignature (h : ∀ n ∈ tree.mentions, ∃ id, NumberOf n id) :
    ∃ tree', checkSignature place tree = .ok tree' := by
  have hexchanges := tree.exchanges (fun field => RecordId.check s!"{place}.{field}")
    (Empty.elim : Empty → Except LoadError Empty)
  refine hexchanges.exists_ok (fun field n hn => ?_) nofun
  obtain ⟨id, hid⟩ := h n (by simpa using hn)
  exact ⟨id, RecordId.check_eq_ok.2 hid⟩

theorem checkSignature_failsWith (place : String) (tree : SignatureTree Int) :
    FailsWith OfReading (checkSignature place tree) :=
  (tree.exchanges (fun field => RecordId.check s!"{place}.{field}")
    (Empty.elim : Empty → Except LoadError Empty)).failsWith
    (fun _ => RecordId.check_failsWith _) nofun

end Signatures

/-! ### Records -/

/-- A tuple that leaves out its least length has a length of 32 bits. -/
def HasLength : NestedRecord Int → Prop
  | .tuple elements none => elements.length < 0x100000000
  | _ => True

section Records

variable {place : String} {raw : NestedRecord Int} {record : NestedRecord RecordId}

/-- The check of the references of a record, its length aside. -/
def checkReferences (place : String) (raw : NestedRecord Int) :
    Except LoadError (NestedRecord RecordId) :=
  raw.traverse (fun field => RecordId.check s!"{place}.{field}") (checkSignature place)

/-- Each reference of a record is checked by itself. -/
theorem checkReferences_each (h : checkReferences place raw = .ok record) :
    raw.Related NumberOf (fun s s' => checkSignature place s = .ok s') record :=
  ((raw.exchanges _ _).of_ok (A := NumberOf) (S := fun s s' => checkSignature place s = .ok s')
    (fun _ _ _ => RecordId.check_eq_ok.1) (fun _ _ => id) h).2

/-- Each signature of a record is copied. -/
theorem checkReferences_becomes (h : checkReferences place raw = .ok record) :
    raw.Related NumberOf (fun s s' => s.Becomes NumberOf Copied s') record :=
  ((raw.exchanges _ _).of_ok (A := NumberOf) (S := fun s s' => s.Becomes NumberOf Copied s')
    (fun _ _ _ => RecordId.check_eq_ok.1) (fun _ _ => checkSignature_becomes) h).2

theorem checkReferences_eq_ok (h : checkReferences place raw = .ok record) :
    List.Forall₂ NumberOf raw.mentions record.mentions ∧ raw.Related NumberOf
      (fun s s' => List.Forall₂ NumberOf s.mentions s'.mentions) record := by
  obtain ⟨hrefs, hrelated⟩ := (raw.exchanges _ _).of_ok (A := NumberOf)
    (S := fun s s' => List.Forall₂ NumberOf s.mentions s'.mentions)
    (fun _ _ _ => RecordId.check_eq_ok.1) (fun _ _ => checkSignature_mentions) h
  refine ⟨?_, hrelated⟩
  rw [mentions_eq, mentions_eq]
  refine List.rel_flatMap hrefs ?_
  rintro _ _ (hid | hs)
  · exact .cons hid .nil
  · exact hs

theorem exists_checkReferences (place : String) (h : ∀ n ∈ raw.mentions, ∃ id, NumberOf n id) :
    ∃ record, checkReferences place raw = .ok record := by
  rw [mentions_eq] at h
  refine (raw.exchanges _ _).exists_ok (fun field n hn => ?_) fun s hs => ?_
  · obtain ⟨id, hid⟩ := h n (List.mem_flatMap.2 ⟨_, hn, List.mem_singleton_self n⟩)
    exact ⟨id, RecordId.check_eq_ok.2 hid⟩
  · exact exists_checkSignature fun n hn => h n (List.mem_flatMap.2 ⟨_, hs, hn⟩)

theorem checkReferences_failsWith (place : String) (raw : NestedRecord Int) :
    FailsWith OfReading (checkReferences place raw) :=
  (raw.exchanges _ _).failsWith (fun _ => RecordId.check_failsWith _) (checkSignature_failsWith place)

/-- The check of the length of a tuple. -/
def checkLength (place : String) (record : NestedRecord RecordId) :
    Except LoadError (NestedRecord RecordId) :=
  match record with
  | .tuple elements none =>
    if elements.length < 0x100000000 then .ok record else .error (.malformed place .tupleTooLong)
  | _ => .ok record

/-- References are checked first, then the length. -/
theorem check_eq (place : String) (raw : NestedRecord Int) :
    check place raw = checkReferences place raw >>= checkLength place :=
  rfl

theorem checkLength_eq_ok {A : Int → RecordId → Prop}
    {S : SignatureTree Int → SignatureTree RecordId → Prop} (h : raw.Related A S record)
    {found : NestedRecord RecordId} :
    checkLength place record = .ok found ↔ record = found ∧ HasLength raw := by
  cases h with
  | whole => simp [checkLength, HasLength]
  | classDeclaration => simp [checkLength, HasLength]
  | tuple minLength helements =>
    cases minLength with
    | some _ => simp [checkLength, HasLength]
    | none =>
      rw [checkLength, HasLength, helements.length_eq]
      split
      · next hlength => simp [hlength]
      · next hlength => simp [hlength]

theorem check_eq_ok : check place raw = .ok record ↔
    checkReferences place raw = .ok record ∧ HasLength raw := by
  rw [check_eq, bind_eq_ok]
  constructor
  · rintro ⟨found, hfound, h⟩
    obtain ⟨rfl, hlength⟩ := (checkLength_eq_ok (checkReferences_eq_ok hfound).2).1 h
    exact ⟨hfound, hlength⟩
  · rintro ⟨h, hlength⟩
    exact ⟨record, h, (checkLength_eq_ok (checkReferences_eq_ok h).2).2 ⟨rfl, hlength⟩⟩

/-- What passes the check mentions what was written, and each number of it as wanted if the numbers
that are written are. -/
theorem exists_check_iff {P : RecordId → Prop} :
    (∃ record, check place raw = .ok record ∧ ∀ id ∈ record.mentions, P id) ↔
      HasLength raw ∧ ∀ n ∈ raw.mentions, ∃ id, NumberOf n id ∧ P id := by
  rw [← exists_forall₂_iff]
  simp only [check_eq_ok]
  constructor
  · rintro ⟨record, ⟨h, hlength⟩, hP⟩
    exact ⟨hlength, _, (checkReferences_eq_ok h).1, hP⟩
  · rintro ⟨hlength, ids, hids, hP⟩
    have hnumbers : ∀ n ∈ raw.mentions, ∃ id, NumberOf n id ∧ P id :=
      exists_forall₂_iff.1 ⟨ids, hids, hP⟩
    obtain ⟨record, h⟩ := exists_checkReferences place fun n hn => (hnumbers n hn).imp fun _ => And.left
    refine ⟨record, ⟨h, hlength⟩, fun id hid => ?_⟩
    obtain ⟨n, hn, hnid⟩ := exists_of_forall₂ (checkReferences_eq_ok h).1 hid
    obtain ⟨id', hnid', hP'⟩ := hnumbers n hn
    exact Option.some.inj (hnid'.symm.trans hnid) ▸ hP'

theorem check_failsWith (place : String) (raw : NestedRecord Int) :
    FailsWith OfReading (check place raw) := by
  rw [check_eq]
  refine (checkReferences_failsWith place raw).bind fun record => ?_
  unfold checkLength
  split
  · split
    · exact .ok _
    · exact .error trivial
  · exact .ok _

end Records

/-! ### Reading -/

/-- `json` is an object that names a kind and has the fields of that kind, those of `raw`. -/
def Spells (json : Json) (raw : NestedRecord Int) : Prop :=
  ∃ members tag kind, json = .object members ∧ members.lookup "kind" = some (.string tag) ∧
    Kind.ofTag? tag = some kind ∧ readFields members kind = .ok raw

variable {id : RecordId} {place : String} {members : List (String × Json)} {json : Json}

theorem readKind_eq_ok {kind : Kind} : readKind id place members = .ok kind ↔
    ∃ tag, members.lookup "kind" = some (.string tag) ∧ Kind.ofTag? tag = some kind := by
  rw [readKind]
  split
  · next h => simp [h]
  · next tag h => cases htag : Kind.ofTag? tag <;> simp [h, htag]
  · next found hfound h =>
    simp only [h, reduceCtorEq, Option.some.injEq, false_iff]
    rintro ⟨tag, htag, -⟩
    exact hfound tag htag

theorem readKind_failsWith (id : RecordId) (place : String) (members : List (String × Json)) :
    FailsWith OfReading (readKind id place members) := by
  rw [readKind]
  split
  · exact .error trivial
  · split
    · exact .ok _
    · exact .error trivial
  · exact .error trivial

theorem read_object (id : RecordId) (members : List (String × Json)) : read id (.object members) =
    (readKind id s!"data[{id.val}]" members >>= fun kind =>
      match readFields members kind with
      | .error fault => .error (.malformed s!"data[{id.val}]" (.misfit fault))
      | .ok raw => raw.check s!"data[{id.val}]") :=
  rfl

theorem read_eq_ok {record : NestedRecord RecordId} : read id json = .ok record ↔
    ∃ raw, Spells json raw ∧ check s!"data[{id.val}]" raw = .ok record := by
  constructor
  · intro h
    cases json with
    | object members =>
      rw [read_object, bind_eq_ok] at h
      obtain ⟨kind, hkind, h⟩ := h
      obtain ⟨tag, htag, hkind⟩ := readKind_eq_ok.1 hkind
      cases hfields : readFields members kind with
      | error fault => simp [hfields] at h
      | ok raw =>
        rw [hfields] at h
        exact ⟨raw, ⟨members, tag, kind, rfl, htag, hkind, hfields⟩, h⟩
    | _ => cases h
  · rintro ⟨raw, ⟨members, tag, kind, rfl, htag, hkind, hfields⟩, hcheck⟩
    rw [read_object, bind_eq_ok]
    refine ⟨kind, readKind_eq_ok.2 ⟨tag, htag, hkind⟩, ?_⟩
    rw [hfields]
    exact hcheck

/-- A record is read, with what it mentions as wanted, if it is spelled with such numbers. -/
theorem exists_read_iff {P : RecordId → Prop} :
    (∃ record, read id json = .ok record ∧ ∀ i ∈ record.mentions, P i) ↔
      ∃ raw, Spells json raw ∧ HasLength raw ∧ ∀ n ∈ raw.mentions, ∃ i, NumberOf n i ∧ P i := by
  simp only [read_eq_ok]
  constructor
  · rintro ⟨record, ⟨raw, hraw, hcheck⟩, hP⟩
    exact ⟨raw, hraw, exists_check_iff.1 ⟨record, hcheck, hP⟩⟩
  · rintro ⟨raw, hraw, h⟩
    obtain ⟨record, hcheck, hP⟩ := exists_check_iff.2 h
    exact ⟨record, ⟨raw, hraw, hcheck⟩, hP⟩

theorem read_failsWith (id : RecordId) (json : Json) : FailsWith OfReading (read id json) := by
  cases json with
  | object members =>
    rw [read_object]
    refine .bind (readKind_failsWith _ _ _) fun kind => ?_
    split
    · exact .error trivial
    · exact check_failsWith _ _
  | _ => exact .error trivial

end Record

end TypeEnv
