import TypeEnv.Proofs.Environment.Contents
import TypeEnv.Proofs.Environment.MovedDocument

/-! The records of a document, taken in at their positions and at others. As many nodes and signatures
come of them either way, each has its counterpart, and nothing is missing in one that is not missing in the
other; only the order in which they are stored differs. -/

namespace TypeEnv

open Reading

/-- Tables have as many entries where their keys are renamed one to one. -/
theorem size_eq_of_keys {κ α : Type} [Ord κ] [Std.TransOrd κ] [Std.LawfulEqOrd κ] {m m' : Std.TreeMap κ α}
    {f : κ → κ} (hf : Function.Bijective f) (h : ∀ key, (∃ a, m[key]? = some a) ↔ ∃ a, m'[f key]? = some a) :
    m.size = m'.size := by
  have hmem : ∀ key, key ∈ m ↔ f key ∈ m' := by
    simpa only [Std.TreeMap.mem_iff_isSome_getElem?, Option.isSome_iff_exists] using h
  have hperm : (m.keys.map f).Perm m'.keys := by
    refine (List.perm_ext_iff_of_nodup (m.nodup_keys.map hf.injective) m'.nodup_keys).2 fun key' => ?_
    obtain ⟨key, rfl⟩ := hf.surjective key'
    rw [List.mem_map_of_injective hf.injective, Std.TreeMap.mem_keys, Std.TreeMap.mem_keys, hmem]
  have hlen := hperm.length_eq
  rwa [List.length_map, Std.TreeMap.length_keys, Std.TreeMap.length_keys] at hlen

theorem Labels.exists_bijOn {κ κ' α β : Type} [Inhabited β] {H : κ → α → Prop} {H' : κ' → β → Prop} {s : Set α}
    {t : Set β} {e : κ → κ'} (h : Labels H s) (h' : Labels H' t) (he : Function.Bijective e)
    (hlabels : ∀ k, (∃ a, H k a) ↔ ∃ b, H' (e k) b) :
    ∃ f : α → β, Set.BijOn f s t ∧ ∀ a ∈ s, Paired H H' e a (f a) :=
  TypeGraph.exists_bijOn (h.exists_right h' hlabels) (h.exists_left h' he.surjective hlabels)
    (h.right_unique h') (h.left_unique h' he.injective)

theorem FixesFrom.bijective_move {p : Equiv.Perm ℕ} {n : Nat} (hp : FixesFrom p n) (hn : n ≤ 0x100000000) :
    Function.Bijective (RecordId.move p) :=
  ⟨fun _ _ => hp.move_inj hn, hp.move_surj hn⟩

namespace Document

variable {p : Equiv.Perm ℕ} {records records' : List (Option (NestedRecord RecordId))} {k : Nat}

theorem RecordsMoved.exists_right (hmoved : RecordsMoved p records records') {record : NestedRecord RecordId}
    (hk : records[k]? = some (some record)) :
    ∃ record', records'[p k]? = some (some record') ∧ record.Moved p record' := by
  have hrel := hmoved.2 k
  rw [hk] at hrel
  generalize records'[p k]? = found at hrel ⊢
  cases hrel with
  | some hrel =>
    cases hrel with
    | some h => exact ⟨_, rfl, h⟩

theorem RecordsMoved.exists_left (hmoved : RecordsMoved p records records') {record' : NestedRecord RecordId}
    (hk : records'[p k]? = some (some record')) :
    ∃ record, records[k]? = some (some record) ∧ record.Moved p record' := by
  have hrel := hmoved.2 k
  rw [hk] at hrel
  generalize records[k]? = found at hrel ⊢
  cases hrel with
  | some hrel =>
    cases hrel with
    | some h => exact ⟨_, rfl, h⟩

end Document

namespace Environment

open Resolver Document

/-! ### Records -/

theorem mem_mentionsOf {records : List (Option (NestedRecord RecordId))} {id : RecordId} :
    id ∈ mentionsOf records ↔
      ∃ (k : Nat) (record : NestedRecord RecordId), records[k]? = some (some record) ∧ id ∈ record.mentions := by
  rw [mentionsOf, List.mem_flatMap]
  constructor
  · rintro ⟨record, hrecord, hid⟩
    obtain ⟨_, hmem, rfl⟩ := List.mem_filterMap.1 hrecord
    obtain ⟨k, hk⟩ := List.mem_iff_getElem?.1 hmem
    exact ⟨k, record, hk, hid⟩
  · rintro ⟨k, record, hk, hid⟩
    exact ⟨record, List.mem_filterMap.2 ⟨_, List.mem_of_getElem? hk, rfl⟩, hid⟩

section Records

variable {p : Equiv.Perm ℕ} {records records' : List (Option (NestedRecord RecordId))}
  (hp : FixesFrom p records.length) (hlen : records.length ≤ 0x100000000)
  (hmoved : RecordsMoved p records records')

include hp hlen hmoved

theorem mem_mentionsOf_move {id : RecordId} : id ∈ mentionsOf records ↔ id.move p ∈ mentionsOf records' := by
  have hmentions : ∀ {record record' : NestedRecord RecordId}, record.Moved p record' →
      (id.move p ∈ record'.mentions ↔ id ∈ record.mentions) := by
    intro record record' h
    have hlist := map_eq_of_forall₂ h.mentions
    rw [List.map_id'] at hlist
    rw [← hlist, List.mem_map_of_injective (hp.bijective_move hlen).injective]
  simp only [mem_mentionsOf]
  constructor
  · rintro ⟨k, record, hk, hid⟩
    obtain ⟨record', hk', h⟩ := hmoved.exists_right hk
    exact ⟨p k, record', hk', (hmentions h).2 hid⟩
  · rintro ⟨k', record', hk', hid⟩
    obtain ⟨k, rfl⟩ := p.surjective k'
    obtain ⟨record, hk, h⟩ := hmoved.exists_left hk'
    exact ⟨k, record, hk, (hmentions h).1 hid⟩

theorem exists_record_move (id : RecordId) : (∃ record, records[id.val.toNat]? = some (some record)) ↔
    ∃ record', records'[(id.move p).val.toNat]? = some (some record') := by
  rw [hp.toNat_move hlen]
  constructor
  · rintro ⟨record, hk⟩
    obtain ⟨record', hk', -⟩ := hmoved.exists_right hk
    exact ⟨record', hk'⟩
  · rintro ⟨record', hk'⟩
    obtain ⟨record, hk, -⟩ := hmoved.exists_left hk'
    exact ⟨record, hk⟩

end Records

/-! ### Roles -/

/-- The role of the counterpart. -/
def Role.move (p : Equiv.Perm ℕ) : Role → Role
  | .placeholder id => .placeholder (id.move p)
  | .record id => .record (id.move p)
  | .global => .global

theorem Role.bijective_move {p : Equiv.Perm ℕ} {n : Nat} (hp : FixesFrom p n) (hn : n ≤ 0x100000000) :
    Function.Bijective (Role.move p) := by
  obtain ⟨hinj, hsurj⟩ := hp.bijective_move hn
  constructor
  · intro role role'
    cases role <;> cases role' <;> simp [Role.move, hinj.eq_iff]
  · rintro (id | id | _)
    · obtain ⟨id, rfl⟩ := hsurj id
      exact ⟨.placeholder id, rfl⟩
    · obtain ⟨id, rfl⟩ := hsurj id
      exact ⟨.record id, rfl⟩
    · exact ⟨.global, rfl⟩

/-! ### Signatures -/

/-- The numbers of signatures are told by their places. -/
theorem labels_signatureAt (records : List (Option (NestedRecord RecordId))) :
    Labels (fun (place : Nat × Nat) i => SignatureAt records i place.1 place.2) {i | i < (rowsFrom 0 records).length} where
  mem place i h := (exists_signatureAt_iff 0).1 ⟨place.1, place.2, h⟩
  total i hi := by
    obtain ⟨k, j, h⟩ := (exists_signatureAt_iff 0).2 hi
    exact ⟨(k, j), h⟩
  label_unique place place' i h h' := Prod.ext (h.unique h').1 (h.unique h').2
  element_unique place i i' h h' := h.1.trans h'.1.symm

theorem signaturesIn_eq {p : Equiv.Perm ℕ} {record record' : Option (NestedRecord RecordId)}
    (h : Option.Rel (Record.Moved p) record record') : signaturesIn record = signaturesIn record' := by
  cases h with
  | none => rfl
  | some h => exact SignatureTree.countOfList_eq h.form.signatureRefs

section Signatures

variable {p : Equiv.Perm ℕ} {records records' : List (Option (NestedRecord RecordId))}
  (hmoved : RecordsMoved p records records')

include hmoved

/-- A place is that of a signature where the new place of its record is. -/
theorem exists_signatureAt_move (k j : Nat) :
    (∃ i, SignatureAt records i k j) ↔ ∃ i, SignatureAt records' i (p k) j := by
  have hrel := hmoved.2 k
  simp only [SignatureAt, exists_and_right, exists_eq, true_and]
  generalize records[k]? = found at hrel ⊢
  generalize records'[p k]? = found' at hrel ⊢
  cases hrel with
  | none => simp
  | some h => simp [signaturesIn_eq h]

theorem length_rowsFrom_eq : (rowsFrom 0 records).length = (rowsFrom 0 records').length := by
  have hplace : Function.Bijective fun place : Nat × Nat => (p place.1, place.2) :=
    (p.prodCongr (Equiv.refl Nat)).bijective
  obtain ⟨f, hf, -⟩ := (labels_signatureAt records).exists_bijOn (labels_signatureAt records') hplace
    fun place => exists_signatureAt_move hmoved place.1 place.2
  have hcard := hf.ncard_eq
  exact (Set.ncard_Iio_nat _).symm.trans (hcard.trans (Set.ncard_Iio_nat _))

end Signatures

/-! ### Documents -/

theorem missing?_eq_none {graph : TypeGraph} {ids : List RecordId} :
    graph.missing? ids = none ↔ ∀ id ∈ ids, ∃ t, graph.registered? id = some t := by
  simp only [TypeGraph.missing?, List.find?_eq_none, Option.isNone_iff_eq_none, ← Option.ne_none_iff_exists', ne_eq]

/-- A document is accepted when there are records for all that it names, and its global names are as wanted. -/
theorem exists_ofDocument_iff {options : LoadOptions} {document : Document}
    (hlen : document.records.length ≤ 0x100000000) (hsize : (collected document).graph.size < 0x100000000) :
    (∃ environment, ofDocument options document = .ok environment) ↔
      (∀ id ∈ mentionsOf document.records ++ sectionIds document,
        ∃ record, document.records[id.val.toNat]? = some (some record)) ∧ qualifiedGlobal? options document = none := by
  have hmissing : ((collected document).graph.missing? (mentionsOf document.records)).or
      ((collected document).graph.missing? (sectionIds document)) = none ↔
        ∀ id ∈ mentionsOf document.records ++ sectionIds document,
          ∃ record, document.records[id.val.toNat]? = some (some record) := by
    simp only [Option.or_eq_none_iff, missing?_eq_none, (registers_collected hlen).registered_iff hlen,
      List.forall_mem_append]
  rw [← error?_eq_none, error?_ofDocument options hlen hsize, ← hmissing]
  cases ((collected document).graph.missing? (mentionsOf document.records)).or
      ((collected document).graph.missing? (sectionIds document)) with
  | some id => simp
  | none => simp

section Documents

variable {p : Equiv.Perm ℕ} {document document' : Document} (hmoved : document.Moved p document')
  (hlen : document.records.length ≤ 0x100000000)

include hmoved

theorem map_fst_globals_eq : document.globals.map Prod.fst = document'.globals.map Prod.fst :=
  map_eq_of_forall₂ (hmoved.globals.imp fun _ _ h => h.1)

theorem sectionIds_eq : sectionIds document' = (sectionIds document).map (RecordId.move p) := by
  have hcatalog : ∀ {entries entries' : CatalogEntries}, List.Forall₂ (Catalog.EntryMoved p) entries entries' →
      entries'.map Prod.snd = (entries.map Prod.snd).map (RecordId.move p) := by
    intro entries entries' h
    rw [List.map_map]
    exact (map_eq_of_forall₂ (h.imp fun _ _ hentry => hentry.2)).symm
  have hlocations : document'.locations.map (·.id) = (document.locations.map (·.id)).map (RecordId.move p) := by
    rw [List.map_map]
    exact (map_eq_of_forall₂ (hmoved.locations.imp fun _ _ hentry => hentry.id)).symm
  rw [sectionIds, sectionIds, hcatalog hmoved.globals, hcatalog hmoved.types, hcatalog hmoved.ambient, hlocations,
    List.map_append, List.map_append, List.map_append]

include hlen

theorem signatureCount_collected_eq :
    (collected document').graph.signatureCount = (collected document).graph.signatureCount := by
  rw [signatureCount_collected hlen, signatureCount_collected (hmoved.records.1 ▸ hlen),
    length_rowsFrom_eq hmoved.records]

variable (hp : FixesFrom p document.records.length)

include hp

theorem exists_named_move (id : RecordId) :
    (∃ t, (collected document).Named id t) ↔ ∃ t, (collected document').Named (id.move p) t := by
  rw [(registers_collected hlen).named_iff, (registers_collected (hmoved.records.1 ▸ hlen)).named_iff]
  exact mem_mentionsOf_move hp hlen hmoved.records

theorem exists_registered_move (id : RecordId) : (∃ t, (collected document).graph.registered? id = some t) ↔
    ∃ t, (collected document').graph.registered? (id.move p) = some t := by
  have hlen' := hmoved.records.1 ▸ hlen
  rw [(registers_collected hlen).registered_iff hlen, (registers_collected hlen').registered_iff hlen']
  exact exists_record_move hp hlen hmoved.records id

theorem size_collected_eq : (collected document').graph.size = (collected document).graph.size := by
  have hmove := hp.bijective_move hlen
  rw [sizeTold_of_steps (steps_collected document'), sizeTold_of_steps (steps_collected document),
    size_eq_of_keys hmove (exists_named_move hmoved hlen hp),
    size_eq_of_keys hmove (exists_registered_move hmoved hlen hp)]

/-- Where a document is accepted it is accepted with its records moved. -/
theorem exists_ofDocument_move {options : LoadOptions} {environment : Environment}
    (hsize : (collected document).graph.size < 0x100000000)
    (h : ofDocument options document = .ok environment) :
    ∃ environment', ofDocument options document' = .ok environment' := by
  have hlen' := hmoved.records.1 ▸ hlen
  have hsize' := size_collected_eq hmoved hlen hp ▸ hsize
  obtain ⟨hids, hflat⟩ := (exists_ofDocument_iff hlen hsize).1 ⟨environment, h⟩
  refine (exists_ofDocument_iff hlen' hsize').2 ⟨fun id' hid' => ?_, ?_⟩
  · obtain ⟨id, rfl⟩ := hp.move_surj hlen id'
    rw [List.mem_append, ← mem_mentionsOf_move hp hlen hmoved.records, sectionIds_eq hmoved,
      List.mem_map_of_injective (hp.bijective_move hlen).injective, ← List.mem_append] at hid'
    exact (exists_record_move hp hlen hmoved.records id).1 (hids id hid')
  · rwa [qualifiedGlobal?, ← map_fst_globals_eq hmoved]

end Documents

end Environment

end TypeEnv
