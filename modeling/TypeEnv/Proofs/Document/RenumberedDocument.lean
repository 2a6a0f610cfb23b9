import TypeEnv.Proofs.Document.Outline
import TypeEnv.Proofs.Document.RenumberedRecords

/-! A document whose records have been moved, as it is read: each record is found at its new position,
with the new numbers of what it mentions, and catalogs and locations name the same records by their new
numbers. -/

namespace TypeEnv

open Reading RecordId

/-! ### Numbers -/

/-- The new number of a record. -/
def RecordId.move (p : Equiv.Perm ℕ) (id : RecordId) : RecordId := ⟨(p id.val.toNat).toUInt32⟩

/-- The permutation moves the first `n` numbers only. -/
def FixesFrom (p : Equiv.Perm ℕ) (n : Nat) : Prop := ∀ k, n ≤ k → p k = k

namespace FixesFrom

variable {p : Equiv.Perm ℕ} {n : Nat} (hp : FixesFrom p n)

include hp

theorem lt_iff {m : Nat} (hm : n ≤ m) (k : Nat) : p k < m ↔ k < m := by
  constructor
  · intro hk
    by_contra hlt
    rw [hp k (by omega)] at hk
    exact hlt hk
  · intro hk
    by_contra hlt
    have hfix := p.injective (hp (p k) (by omega))
    omega

variable (hn : n ≤ 0x100000000)

include hn

theorem toNat_move (id : RecordId) : (id.move p).val.toNat = p id.val.toNat :=
  toNat_toUInt32 ((hp.lt_iff hn _).2 id.val.toNat_lt)

theorem move_inj {id id' : RecordId} (h : id.move p = id'.move p) : id = id' := by
  have htoNat := congrArg (·.val.toNat) h
  rw [hp.toNat_move hn, hp.toNat_move hn] at htoNat
  rw [← id.word_eq, p.injective htoNat, id'.word_eq]

theorem move_surj (id : RecordId) : ∃ id' : RecordId, id'.move p = id := by
  have hlt : p.symm id.val.toNat < 0x100000000 := by
    rw [← hp.lt_iff hn, p.apply_symm_apply]
    exact id.val.toNat_lt
  refine ⟨⟨(p.symm id.val.toNat).toUInt32⟩, ?_⟩
  rw [RecordId.move, toNat_toUInt32 hlt, p.apply_symm_apply, word_eq]

theorem keepsRange : KeepsRange (renumbered p) where
  nonneg n := by
    rw [renumbered]
    split <;> omega
  int64 k hlow hhigh := by
    rw [renumbered]
    split
    · next hk =>
      by_cases hlt : k.toNat < 0x100000000
      · have := (hp.lt_iff hn k.toNat).2 hlt
        omega
      · rw [hp k.toNat (by omega)]
        omega
    · exact ⟨hlow, hhigh⟩

theorem numberOf_move {k : Int} {id : RecordId} (h : NumberOf k id) : NumberOf (renumbered p k) (id.move p) := by
  obtain rfl := numberOf_iff.1 h
  rw [numberOf_iff, hp.toNat_move hn, renumbered, if_pos (by omega), Int.toNat_natCast]

/-- The number of a record becomes its new number and no other. -/
theorem move_eq (id : RecordId) (k : Int) (id' : RecordId) (h : NumberOf k id)
    (h' : NumberOf (renumbered p k) id') : id.move p = id' :=
  Option.some.inj ((hp.numberOf_move hn h).symm.trans h')

end FixesFrom

/-! ### Records -/

namespace Record

/-- The same record with the new numbers of what it mentions. -/
structure Moved (p : Equiv.Perm ℕ) (record record' : NestedRecord RecordId) : Prop where
  mentions : List.Forall₂ (RecordId.move p · = ·) record.mentions record'.mentions
  form : record.form.Related (RecordId.move p · = ·) (SignatureTree.Alike (RecordId.move p · = ·)) record'.form

theorem checkSignature_alike {place : String} {tree : SignatureTree Int} {tree' : SignatureTree RecordId}
    (h : checkSignature place tree = .ok tree') : tree.Alike NumberOf tree' := by
  have hexchanges := tree.exchanges (fun field => RecordId.check s!"{place}.{field}")
    (Empty.elim : Empty → Except LoadError Empty)
  exact tree.alike_of_becomes tree' (hexchanges.of_ok (A := NumberOf) (S := fun _ _ => False)
    (fun _ _ _ => RecordId.check_eq_ok.1) nofun h).2

theorem checkReferences_related {place : String} {raw : NestedRecord Int} {record : NestedRecord RecordId}
    (h : checkReferences place raw = .ok record) :
    raw.Related NumberOf (SignatureTree.Alike NumberOf) record :=
  ((raw.exchanges _ _).of_ok (A := NumberOf) (S := SignatureTree.Alike NumberOf)
    (fun _ _ _ => RecordId.check_eq_ok.1) (fun _ _ => checkSignature_alike) h).2

theorem HasLength.of_related {A : Int → Int → Prop} {raw raw' : NestedRecord Int}
    {S : SignatureTree Int → SignatureTree Int → Prop} (h : raw.Related A S raw') (hlength : HasLength raw) :
    HasLength raw' := by
  cases h with
  | whole | classDeclaration => trivial
  | tuple minLength h =>
    cases minLength with
    | some _ => trivial
    | none =>
      rw [HasLength, ← h.length_eq]
      exact hlength

variable {p : Equiv.Perm ℕ} {n : Nat} (hp : FixesFrom p n) (hn : n ≤ 0x100000000)

include hp hn

theorem exists_check_moved {place place' : String} {raw raw' : NestedRecord Int}
    {record : NestedRecord RecordId}
    (h : raw.Related (renumbered p · = ·) (SignatureTree.Alike (renumbered p · = ·)) raw')
    (hcheck : check place raw = .ok record) :
    ∃ record', check place' raw' = .ok record' ∧ Moved p record record' := by
  obtain ⟨hrefs, hlength⟩ := check_eq_ok.1 hcheck
  have hnumbers := (checkReferences_eq_ok hrefs).1
  have hids : ∀ k' ∈ raw'.mentions, ∃ id, NumberOf k' id := by
    intro k' hk'
    obtain ⟨k, hk, rfl⟩ := exists_of_forall₂ h.mentions hk'
    obtain ⟨id, -, hid⟩ := exists_of_forall₂ hnumbers.flip hk
    exact ⟨_, hp.numberOf_move hn hid⟩
  obtain ⟨record', hrefs'⟩ := exists_checkReferences place' hids
  have hold := checkReferences_related hrefs
  have hnew := checkReferences_related hrefs'
  have hcarry : ∀ k k' id', renumbered p k = k' → NumberOf k' id' → NumberOf (renumbered p k) id' := by
    rintro k _ id' rfl hid'
    exact hid'
  refine ⟨record', check_eq_ok.2 ⟨hrefs', hlength.of_related h⟩, ?_, ?_⟩
  · exact forall₂_trans (hp.move_eq hn) hold.mentions.flip (forall₂_trans hcarry h.mentions hnew.mentions)
  · have hafter := h.form.trans hcarry (fun _ _ _ htree htree' => htree.trans hcarry htree') hnew.form
    exact hold.form.flip.trans (hp.move_eq hn)
      (fun _ _ _ htree htree' => htree.flip.trans (hp.move_eq hn) htree') hafter

/-- A record that reads is read at any place with the new numbers. -/
theorem exists_read_moved {id : RecordId} (id' : RecordId) {json : Json} {record : NestedRecord RecordId}
    (h : read id json = .ok record) :
    ∃ record', read id' ((ObjectSort.record (kindOf? json)).renumber (renumbered p) json) = .ok record' ∧
      Moved p record record' := by
  obtain ⟨raw, ⟨members, tag, kind, rfl, htag, hkind, hfields⟩, hcheck⟩ := read_eq_ok.1 h
  have hkindOf : kindOf? (.object members) = some kind := by
    rw [kindOf?, kind?, htag]
    exact hkind
  obtain ⟨raw', hfields', hrelated⟩ := follows_readFields (hp.keepsRange hn) kind members raw hfields
  obtain ⟨record', hcheck', hmoved⟩ := exists_check_moved hp hn hrelated hcheck
  refine ⟨record', read_eq_ok.2 ⟨raw', ?_, hcheck'⟩, hmoved⟩
  rw [hkindOf]
  refine ⟨_, tag, kind, rfl, ?_, hkind, hfields'⟩
  rw [lookup_renumberMembers, htag]
  rfl

end Record

/-! ### Positions -/

theorem getElem?_filterMap_of_isSome {α β : Type} {f : α → Option β} {l : List α}
    (h : ∀ a ∈ l, (f a).isSome) (i : Nat) : (l.filterMap f)[i]? = l[i]?.bind f := by
  induction l generalizing i with
  | nil => rfl
  | cons a l ih =>
    obtain ⟨ha, hl⟩ := List.forall_mem_cons.1 h
    obtain ⟨b, hb⟩ := Option.isSome_iff_exists.1 ha
    rw [List.filterMap_cons_some hb]
    cases i with
    | zero => exact hb.symm
    | succ i => simpa using ih hl i

section Positions

variable {α : Type} {p : Equiv.Perm ℕ} {l : List α} (hp : FixesFrom p l.length)

include hp

theorem isSome_of_mem_range {i : Nat} (hi : i ∈ List.range l.length) : (l[p.symm i]?).isSome := by
  rw [List.mem_range, ← p.apply_symm_apply i, hp.lt_iff (Nat.le_refl _)] at hi
  simpa using hi

theorem length_moved : (moved p l).length = l.length := by
  rw [moved, List.filterMap_length_eq_length.2 fun i hi => isSome_of_mem_range hp hi, List.length_range]

theorem getElem?_moved (k : Nat) : (moved p l)[p k]? = l[k]? := by
  rw [moved, getElem?_filterMap_of_isSome fun i hi => isSome_of_mem_range hp hi]
  by_cases hk : k < l.length
  · rw [List.getElem?_range ((hp.lt_iff (Nat.le_refl _) k).2 hk), Option.bind_some, p.symm_apply_apply]
  · have hpk : ¬ p k < l.length := mt (hp.lt_iff (Nat.le_refl _) k).1 hk
    rw [List.getElem?_eq_none (by simpa using hpk), List.getElem?_eq_none (by simpa using hk), Option.bind_none]

end Positions

namespace Document

variable {options : LoadOptions} {p : Equiv.Perm ℕ} {n : Nat} (hp : FixesFrom p n) (hn : n ≤ 0x100000000)

include hp hn

theorem exists_readAt_moved {k : Nat} {json : Json} {record : Option (NestedRecord RecordId)}
    (h : readAt options k json = .ok record) :
    ∃ record', readAt options (p k)
      ((ObjectSort.record (Record.kindOf? json)).renumber (renumbered p) json) = .ok record' ∧
        Option.Rel (Record.Moved p) record record' := by
  obtain ⟨hk, hread⟩ := readAt_eq_ok.1 h
  have hnull : ((ObjectSort.record (Record.kindOf? json)).renumber (renumbered p) json).isNull = json.isNull := by
    cases json <;> rfl
  simp only [readAt_eq_ok, readRecord_eq_ok, hnull, hp.lt_iff hn k]
  rcases readRecord_eq_ok.1 hread with ⟨hjson, hskip, rfl⟩ | ⟨hjson, record, rfl, hok⟩
  · exact ⟨none, ⟨hk, .inl ⟨hjson, hskip, rfl⟩⟩, .none⟩
  · obtain ⟨record', hok', hmoved⟩ := Record.exists_read_moved hp hn ⟨(p k).toUInt32⟩ hok
    exact ⟨some record', ⟨hk, .inr ⟨hjson, record', rfl, hok'⟩⟩, .some hmoved⟩

omit hp hn

/-- The records at their new positions. -/
def RecordsMoved (p : Equiv.Perm ℕ) (records records' : List (Option (NestedRecord RecordId))) : Prop :=
  records'.length = records.length ∧
    ∀ k : Nat, Option.Rel (Option.Rel (Record.Moved p)) records[k]? records'[p k]?

/-- Records that read are read at their new positions, with the new numbers. -/
theorem exists_readRecords_moved {data : List Json} {records : List (Option (NestedRecord RecordId))}
    (hp : FixesFrom p data.length) (h : readRecords options 0 data = .ok records) :
    ∃ records', readRecords options 0 (moved p (data.map fun item =>
      (ObjectSort.record (Record.kindOf? item)).renumber (renumbered p) item)) = .ok records' ∧
        RecordsMoved p records records' := by
  have hn := length_le_of_readRecords h
  obtain ⟨hlen, hread⟩ := readRecords_eq_ok.1 h
  generalize hf : (fun item => (ObjectSort.record (Record.kindOf? item)).renumber (renumbered p) item) = f
  have hp' : FixesFrom p (data.map f).length := by rwa [List.length_map]
  have hget : ∀ k : Nat, (moved p (data.map f))[p k]? = data[k]?.map f := fun k => by
    rw [getElem?_moved hp', List.getElem?_map]
  have hok : ∀ (k : Nat) json, data[k]? = some json → ∃ record record', records[k]? = some record ∧
      readAt options (p k) (f json) = .ok record' ∧ Option.Rel (Record.Moved p) record record' := by
    intro k json hk
    obtain ⟨record, hrecord, hat⟩ := hread k json hk
    obtain ⟨record', hat', hmoved⟩ := exists_readAt_moved hp hn hat
    exact ⟨record, record', hrecord, hf ▸ hat', hmoved⟩
  have hall : ∀ entry ∈ (moved p (data.map f)).zipIdx,
      ∃ record, readAt options entry.2 entry.1 = .ok record ∧ True := by
    rintro ⟨json', i⟩ hentry
    obtain ⟨k, rfl⟩ := p.surjective i
    rw [List.mem_zipIdx_iff_getElem?, hget, Option.map_eq_some_iff] at hentry
    obtain ⟨json, hk, rfl⟩ := hentry
    obtain ⟨_, record', -, hat', -⟩ := hok k json hk
    exact ⟨record', hat', trivial⟩
  obtain ⟨records', hrecords', -⟩ := exists_mapM_iff.2 hall
  rw [← readRecords_eq] at hrecords'
  obtain ⟨hlen', hread'⟩ := readRecords_eq_ok.1 hrecords'
  rw [length_moved hp', List.length_map] at hlen'
  refine ⟨records', hrecords', hlen'.trans hlen.symm, fun k => ?_⟩
  cases hk : data[k]? with
  | none =>
    have hge := List.getElem?_eq_none_iff.1 hk
    rw [hp k hge, List.getElem?_eq_none (by omega), List.getElem?_eq_none (by omega)]
    exact .none
  | some json =>
    obtain ⟨record, record', hrecord, hat', hmoved⟩ := hok k json hk
    obtain ⟨found, hfound, hat⟩ := hread' (p k) (f json) (by rw [hget, hk, Option.map_some])
    obtain rfl := Except.ok.inj (hat'.symm.trans hat)
    rw [hrecord, hfound]
    exact .some hmoved

end Document

end TypeEnv
